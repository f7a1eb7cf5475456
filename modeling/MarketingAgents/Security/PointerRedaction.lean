import Mathlib.Data.List.Induction
import Mathlib.Tactic.IntervalCases
import MarketingAgents.Domain.ApprovalProjection
import MarketingAgents.Security.RedactionClassification

namespace MarketingAgents

open Library

/-! # Redaction by pointers

Explicit pointer paths are masked one after the other in the canonical copy of a
redacted value. What the pointers of one list mask together does not depend on
their order.
-/

def maxRedactionPointers : Nat := 64
def maxPointerLength : Nat := 1000
def maxPointerSegments : Nat := 64

/-- The tokens of one redaction pointer. -/
def decodeRedactionPointer (pointer : String) : Except Rejection (List String) := do
  let characters := pointer.toList
  require (characters.head? = some '/' ∧ pointer ≠ "/")
    "ValueError" "redaction pointer must be a non-root RFC 6901 pointer"
  require (characters.length ≤ maxPointerLength) "ValueError" "redaction pointer is too long"
  let encoded := characters.tail.splitOn '/'
  require (encoded.length ≤ maxPointerSegments ∧ encoded.all (· ≠ []))
    "ValueError" "redaction pointer has invalid segments"
  require (encoded.all escapesValid) "ValueError" "redaction pointer contains an invalid escape"
  return encoded.map decodeToken

/-- A decimal index without leading zeros. -/
def pointerIndexText (token : List Char) : Bool :=
  token = ['0'] || (token.head?.any fun first => '1' ≤ first && first ≤ '9') &&
    token.all JsonText.isDigit

def keySelected (token : String) (key : Option String) : Bool :=
  key.any fun name => token = "*" || name = token

section

variable {φ : Type}

def maskIf (selected : Bool) (mask : PythonValue φ → Except Rejection (PythonValue φ))
    (item : PythonValue φ) : Except Rejection (PythonValue φ) :=
  if selected then mask item else .ok item

def maskMembers (mask : PythonValue φ → Except Rejection (PythonValue φ))
    (selected : Option String → Bool) :
    List (Option String × PythonValue φ) → Except Rejection (List (Option String × PythonValue φ))
  | [] => .ok []
  | (key, item) :: rest => do
      let masked ← maskIf (selected key) mask item
      let others ← maskMembers mask selected rest
      return (key, masked) :: others

def maskItems (mask : PythonValue φ → Except Rejection (PythonValue φ)) (selected : Nat → Bool)
    (index : Nat) : List (PythonValue φ) → Except Rejection (List (PythonValue φ))
  | [] => .ok []
  | item :: rest => do
      let masked ← maskIf (selected index) mask item
      let others ← maskItems mask selected (index + 1) rest
      return masked :: others

-- `shown` is how the language shows a text.
variable (shown : String → String) (numbers : NumberSupport φ) (pointer : String)

/-- The items that a token selects. -/
def selectedIndex (token : String) : Except Rejection (Nat → Bool) :=
  if token = "*" then .ok fun _ => true
  else do
    require (pointerIndexText token.toList)
      "ValueError" ("redaction pointer " ++ shown pointer ++ " has an invalid array index")
    require (token.toList.length ≤ numbers.maxStrDigits)
      "ValueError" "Exceeds the limit for integer string conversion"
    return fun index => index = Nat.ofDigitChars 10 token.toList 0

/-- Mask the positions of one pointer; what is masked already stays. -/
def maskPointer : List String → PythonValue φ → Except Rejection (PythonValue φ)
  | [], _ => .ok redactedStr
  | token :: remaining, value =>
      match value with
      | .mapping members => do
          let masked ← maskMembers (maskPointer remaining) (keySelected token) members
          return .mapping masked
      | .sequence items => do
          let selected ← selectedIndex shown numbers pointer token
          let masked ← maskItems (maskPointer remaining) selected 0 items
          return .sequence masked
      | .str written =>
          if written = "[REDACTED]" then .ok redactedStr
          else reject "ValueError" ("redaction pointer " ++ shown pointer ++
            " traverses a scalar value")
      | _ =>
        reject "ValueError" ("redaction pointer " ++ shown pointer ++ " traverses a scalar value")

/-- Mask one pointer after the other. -/
def maskPointers : List (String × List String) → PythonValue φ → Except Rejection (PythonValue φ)
  | [], value => .ok value
  | (pointer, tokens) :: rest, value => do
      let masked ← maskPointer shown numbers pointer tokens value
      maskPointers rest masked

def decodePairs (pointers : List String) : Except Rejection (List (String × List String)) :=
  pointers.mapM fun pointer => do
    let tokens ← decodeRedactionPointer pointer
    return (pointer, tokens)

variable (text : TextSupport)

/-- The canonical copy of a redacted value that pointers are applied to. -/
def canonicalRedaction (value : RawValue φ) (schema : Option JsonSchema) :
    Except Rejection (PythonValue φ) := do
  let redacted ← value.redact text schema none
  let bytes ← canonicalJsonBytes text numbers redacted
  requireSome (jsonLoads numbers bytes) "ValueError" "invalid JSON"

def redactJsonPointers (value : RawValue φ) (pointers : List String) (schema : Option JsonSchema) :
    Except Rejection (PythonValue φ) := do
  require (pointers.length ≤ maxRedactionPointers) "ValueError"
    "redaction pointers are invalid or unbounded"
  let decoded ← decodePairs pointers
  require pointers.Nodup "ValueError" "redaction pointers must be unique"
  let projected ← canonicalRedaction numbers text value schema
  maskPointers shown numbers decoded projected

end

section

variable {φ : Type}

/-- Which positions are replaced by the marker. -/
abbrev Marking := List JsonStep → Bool

def Marking.under (marked : Marking) (step : JsonStep) : Marking :=
  fun rest => marked (step :: rest)

mutual

/-- Replace every marked position by the marker. -/
def PythonValue.maskWhere (marked : Marking) (value : PythonValue φ) : PythonValue φ :=
  if marked [] then redactedStr
  else
    match value with
    | .mapping members => .mapping (maskMembersWhere marked members)
    | .sequence items => .sequence (maskItemsWhere marked 0 items)
    | other => other

def maskMembersWhere (marked : Marking) :
    List (Option String × PythonValue φ) → List (Option String × PythonValue φ)
  | [] => []
  | (none, item) :: rest => (none, item) :: maskMembersWhere marked rest
  | (some name, item) :: rest =>
      (some name, item.maskWhere (marked.under (.member name))) :: maskMembersWhere marked rest

def maskItemsWhere (marked : Marking) (index : Nat) : List (PythonValue φ) → List (PythonValue φ)
  | [] => []
  | item :: rest =>
    item.maskWhere (marked.under (.index index)) :: maskItemsWhere marked (index + 1) rest

end

/-- A token stands for a step: the wildcard for every one, any other for the step that is written
so. -/
def tokenStands (token : String) (step : JsonStep) : Bool := token = "*" || token = step.token

/-- The positions of one pointer. -/
def pointerMarks : List String → Marking
  | [], position => position = []
  | _ :: _, [] => false
  | token :: tokens, step :: rest => tokenStands token step && pointerMarks tokens rest

/-- The positions of any of the pointers. -/
def pointersMark (paths : List (List String)) : Marking :=
  fun position => paths.any fun path => pointerMarks path position

/-- Whether masking one path may reach the inside of the other: it ends earlier, and no token keeps
them apart. -/
def pathAbove : List String → List String → Bool
  | [], [] => false
  | [], _ :: _ => true
  | _ :: _, [] => false
  | first :: rest, second :: others =>
    (first = "*" || second = "*" || first = second) && pathAbove rest others

/-- The positions that a pointer descends through on the way to its own. -/
def pointerPasses : List String → Marking
  | [], _ => false
  | _ :: _, [] => true
  | token :: tokens, step :: rest => tokenStands token step && pointerPasses tokens rest

variable {marked : Marking} {value : PythonValue φ}

namespace PythonValue

theorem maskWhere_root (here : marked [] = true) : value.maskWhere marked = redactedStr := by
  rw [maskWhere.eq_def, if_pos here]

theorem maskWhere_mapping (plain : marked [] = false) :
    (mapping members).maskWhere marked = .mapping (maskMembersWhere marked members) := by
  rw [maskWhere.eq_def, if_neg (by simp [plain])]

theorem maskWhere_sequence (plain : marked [] = false) :
    (sequence items).maskWhere marked = .sequence (maskItemsWhere marked 0 items) := by
  rw [maskWhere.eq_def, if_neg (by simp [plain])]

theorem maskWhere_leaf (leaf : value.leaf = true) (plain : marked [] = false) :
    value.maskWhere marked = value := by
  rw [maskWhere.eq_def, if_neg (by simp [plain])]
  cases value with
  | mapping | sequence => cases leaf
  | _ => rfl

theorem maskWhere_redacted : (redactedStr : PythonValue φ).maskWhere marked = redactedStr := by
  cases here : marked [] with
  | true => exact maskWhere_root here
  | false => exact maskWhere_leaf rfl here

mutual

theorem maskWhere_none : ∀ {value : PythonValue φ}, value.maskWhere (fun _ => false) = value
  | .mapping members => by rw [maskWhere_mapping rfl, maskMembersWhere_none]
  | .sequence items => by rw [maskWhere_sequence rfl, maskItemsWhere_none]
  | .null | .bool _ | .int _ | .float _ | .str _ | .other _ => maskWhere_leaf rfl rfl

theorem maskMembersWhere_none : ∀ {members : List (Option String × PythonValue φ)},
    maskMembersWhere (fun _ => false) members = members
  | [] => rfl
  | (none, item) :: rest => by rw [maskMembersWhere, maskMembersWhere_none]
  | (some name, item) :: rest => by
      rw [maskMembersWhere, maskMembersWhere_none]
      exact congrArg (fun masked => (some name, masked) :: rest) maskWhere_none

theorem maskItemsWhere_none : ∀ {items : List (PythonValue φ)} {index : Nat},
    maskItemsWhere (fun _ => false) index items = items
  | [], _ => rfl
  | item :: rest, index => by
      rw [maskItemsWhere, maskItemsWhere_none]
      exact congrArg (fun masked => masked :: rest) maskWhere_none

end

mutual

theorem maskWhere_maskWhere : ∀ {value : PythonValue φ} {marked further : Marking},
    (value.maskWhere marked).maskWhere further = value.maskWhere fun position =>
      marked position || further position
  | value, marked, further => by
      cases here : marked [] with
      | true => rw [maskWhere_root here, maskWhere_redacted, maskWhere_root (by simp [here])]
      | false =>
          cases there : further [] with
          | true => rw [maskWhere_root there, maskWhere_root (by simp [there])]
          | false =>
              have plain : (marked [] || further []) = false := by rw [here, there, Bool.or_false]
              cases value with
              | mapping members =>
                  rw [maskWhere_mapping here, maskWhere_mapping there, maskMembersWhere_twice]
                  exact (maskWhere_mapping plain).symm
              | sequence items =>
                  rw [maskWhere_sequence here, maskWhere_sequence there, maskItemsWhere_twice]
                  exact (maskWhere_sequence plain).symm
              | _ =>
                  rw [maskWhere_leaf rfl here, maskWhere_leaf rfl there, maskWhere_leaf rfl plain]

theorem maskMembersWhere_twice : ∀ {members : List (Option String × PythonValue φ)}
    {marked further : Marking}, maskMembersWhere further (maskMembersWhere marked members) =
      maskMembersWhere (fun position => marked position || further position) members
  | [], _, _ => rfl
  | (none, item) :: rest, _, _ => by
      rw [maskMembersWhere, maskMembersWhere, maskMembersWhere, maskMembersWhere_twice]
  | (some name, item) :: rest, _, _ => by
      rw [maskMembersWhere, maskMembersWhere, maskMembersWhere, maskMembersWhere_twice,
        maskWhere_maskWhere]
      rfl

theorem maskItemsWhere_twice : ∀ {items : List (PythonValue φ)} {marked further : Marking}
    {index : Nat}, maskItemsWhere further index (maskItemsWhere marked index items) =
      maskItemsWhere (fun position => marked position || further position) index items
  | [], _, _, _ => rfl
  | item :: rest, _, _, index => by
      rw [maskItemsWhere, maskItemsWhere, maskItemsWhere, maskItemsWhere_twice, maskWhere_maskWhere]
      rfl

end

end PythonValue

theorem digitChar_of_isDigit {character : Char} (digit : JsonText.isDigit character = true) :
    character.toNat - '0'.toNat < 10 ∧ (character.toNat - '0'.toNat).digitChar = character ∧
      (character ≠ '0' → 0 < character.toNat - '0'.toNat) := by
  simp only [JsonText.isDigit, Bool.and_eq_true, decide_eq_true_eq, Char.le_def,
    UInt32.le_iff_toNat_le] at digit
  have lower : 48 ≤ character.toNat := digit.1
  have upper : character.toNat ≤ 57 := digit.2
  rw [← Char.ofNat_toNat character]
  interval_cases character.toNat <;> decide

theorem toDigits_ofDigitChars {digits : List Char}
    (all : ∀ digit ∈ digits, JsonText.isDigit digit = true)
    (nonempty : digits ≠ []) (first : ∀ digit ∈ digits.head?, digit ≠ '0') :
    Nat.toDigits 10 (Nat.ofDigitChars 10 digits 0) = digits ∧ 0 < Nat.ofDigitChars 10 digits 0 := by
  induction digits using List.reverseRecOn with
  | nil => exact absurd rfl nonempty
  | append_singleton front last ih =>
      obtain ⟨small, spelled, positive⟩ := digitChar_of_isDigit (all last (by simp))
      rw [Nat.ofDigitChars_append, Nat.ofDigitChars_cons, Nat.ofDigitChars_nil]
      cases front with
      | nil =>
          have here := positive (first last rfl)
          rw [Nat.ofDigitChars_nil, Nat.mul_zero, Nat.zero_add,
            Nat.toDigits_of_lt_base small, spelled]
          exact ⟨rfl, here⟩
      | cons head rest =>
          obtain ⟨digits, above⟩ :=
            ih (fun digit listed => all digit (List.mem_append_left _ listed))
            (List.cons_ne_nil _ _) first
          rw [← Nat.toDigits_append_toDigits (by decide) above small, digits,
            Nat.toDigits_of_lt_base small, spelled]
          exact ⟨rfl, by omega⟩

theorem pointerIndexText_digits (index : pointerIndexText token = true) :
    Nat.toDigits 10 (Nat.ofDigitChars 10 token 0) = token := by
  simp only [pointerIndexText, Bool.or_eq_true, Bool.and_eq_true, decide_eq_true_eq,
    List.all_eq_true] at index
  rcases index with rfl | ⟨leading, digits⟩
  · rfl
  · cases token with
    | nil => cases leading
    | cons head rest =>
        refine (toDigits_ofDigitChars digits (List.cons_ne_nil _ _) ?_).1
        rintro first same rfl
        obtain rfl := Option.some.inj same
        rw [List.head?_cons, Option.any_some] at leading
        exact absurd leading (by decide)

section

variable {shown : String → String} {numbers : NumberSupport φ} {pointer token : String}
  {selected : Nat → Bool}

theorem selectedIndex_stands (chosen : selectedIndex shown numbers pointer token = .ok selected)
    (index : Nat) :
    selected index = tokenStands token (.index index) := by
  rw [selectedIndex] at chosen
  rw [tokenStands, JsonStep.token]
  split at chosen
  · rename_i wildcard
    cases chosen
    simp [wildcard]
  · rename_i exact_
    simp only [bind_ok, require_ok, pure_ok] at chosen
    obtain ⟨_, decimal, _, _, rfl⟩ := chosen
    have spelled := pointerIndexText_digits decimal
    rw [decide_eq_false exact_, Bool.false_or, decide_eq_decide]
    constructor
    · intro same
      rw [Nat.toString_eq_ofList_toDigits, same, spelled, String.ofList_toList]
    · intro same
      rw [same, Nat.toString_eq_ofList_toDigits, String.toList_ofList,
        Nat.ofDigitChars_ten_toDigits]

theorem keySelected_stands : keySelected token (some name) = tokenStands token (.member name) := by
  rw [keySelected, Option.any_some, tokenStands, JsonStep.token]
  congr 1
  exact decide_eq_decide.mpr eq_comm

variable {mask : PythonValue φ → Except Rejection (PythonValue φ)} {tokens : List String}

theorem pointerMarks_under (step : JsonStep) : Marking.under (pointerMarks (token :: tokens)) step =
    if tokenStands token step then pointerMarks tokens else fun _ => false := by
  funext rest
  rw [Marking.under, pointerMarks]
  cases tokenStands token step <;> simp

theorem maskIf_where {chosen : Bool} (masks : ∀ {before after}, mask before = .ok after →
      after = before.maskWhere (pointerMarks tokens))
    (stands : chosen = tokenStands token step) (done : maskIf chosen mask item = .ok masked) :
    masked = item.maskWhere (Marking.under (pointerMarks (token :: tokens)) step) := by
  rw [pointerMarks_under, ← stands]
  cases chosen with
  | true => exact masks done
  | false =>
      cases done
      exact PythonValue.maskWhere_none.symm

theorem maskMembers_where (masks : ∀ {before after}, mask before = .ok after →
      after = before.maskWhere (pointerMarks tokens))
    (done : maskMembers mask (keySelected token) members = .ok masked) :
    masked = maskMembersWhere (pointerMarks (token :: tokens)) members := by
  induction members generalizing masked with
  | nil =>
      cases done
      rfl
  | cons entry rest ih =>
      obtain ⟨key, item⟩ := entry
      simp only [maskMembers, bind_ok, pure_ok] at done
      obtain ⟨first, one, others, later, rfl⟩ := done
      rw [ih later]
      cases key with
      | none =>
          cases one
          rfl
      | some name => rw [maskIf_where masks keySelected_stands one, maskMembersWhere]

theorem maskItems_where {start : Nat} (masks : ∀ {before after}, mask before = .ok after →
      after = before.maskWhere (pointerMarks tokens))
    (stands : ∀ index, selected index = tokenStands token (.index index))
    (done : maskItems mask selected start items = .ok masked) :
    masked = maskItemsWhere (pointerMarks (token :: tokens)) start items := by
  induction items generalizing masked start with
  | nil =>
      cases done
      rfl
  | cons item rest ih =>
      simp only [maskItems, bind_ok, pure_ok] at done
      obtain ⟨first, one, others, later, rfl⟩ := done
      rw [ih later, maskIf_where masks (stands start) one, maskItemsWhere]

theorem maskPointer_where (done : maskPointer shown numbers pointer tokens value = .ok masked) :
    masked = value.maskWhere (pointerMarks tokens) := by
  induction tokens generalizing value masked with
  | nil =>
      cases done
      exact (PythonValue.maskWhere_root rfl).symm
  | cons token remaining ih =>
      have plain : pointerMarks (token :: remaining) [] = false := rfl
      cases value with
      | mapping members =>
          simp only [maskPointer, bind_ok, pure_ok] at done
          obtain ⟨inner, each, rfl⟩ := done
          rw [PythonValue.maskWhere_mapping plain, maskMembers_where ih each]
      | sequence items =>
          simp only [maskPointer, bind_ok, pure_ok] at done
          obtain ⟨selected, chosen, inner, each, rfl⟩ := done
          rw [PythonValue.maskWhere_sequence plain,
            maskItems_where ih (selectedIndex_stands chosen) each]
      | str written =>
          rw [PythonValue.maskWhere_leaf rfl plain]
          simp only [maskPointer] at done
          split at done
          · rename_i same
            cases done
            rw [same, redactedStr]
          · cases done
      | _ => cases done

theorem maskPointers_where (done : maskPointers shown numbers decoded value = .ok masked) :
    masked = value.maskWhere (pointersMark (decoded.map Prod.snd)) := by
  induction decoded generalizing value with
  | nil =>
      cases done
      exact PythonValue.maskWhere_none.symm
  | cons entry rest ih =>
      obtain ⟨pointer, tokens⟩ := entry
      simp only [maskPointers, bind_ok] at done
      obtain ⟨first, one, others⟩ := done
      rw [ih others, maskPointer_where one, PythonValue.maskWhere_maskWhere]
      rfl

theorem passes_apart (apart : pathAbove path other = false)
    (marks : pointerMarks path position = true) : pointerPasses other position = false := by
  induction path generalizing other position with
  | nil =>
      cases other with
      | nil => rfl
      | cons head rest => cases apart
  | cons first rest ih =>
      cases position with
      | nil => cases marks
      | cons step below =>
          rw [pointerMarks, Bool.and_eq_true] at marks
          cases other with
          | nil => rfl
          | cons second others =>
              rw [pointerPasses]
              cases stands : tokenStands second step with
              | false => rfl
              | true =>
                  have meets : (first = "*" || second = "*" || first = second) = true := by
                    have stood := marks.1
                    simp only [tokenStands, Bool.or_eq_true, decide_eq_true_eq] at stood stands ⊢
                    rcases stood with wildcard | same
                    · exact .inl (.inl wildcard)
                    · rcases stands with wildcard | equal
                      · exact .inl (.inr wildcard)
                      · exact .inr (same.trans equal.symm)
                  rw [pathAbove, meets, Bool.true_and] at apart
                  rw [Bool.true_and]
                  exact ih apart marks.2

variable {marked : Marking}

theorem maskIf_succeeds {chosen : Bool}
    (same : chosen = true → ((∃ after, mask masked = .ok after) ↔ ∃ after, mask item = .ok after)) :
    (∃ after, maskIf chosen mask masked = .ok after) ↔
      ∃ after, maskIf chosen mask item = .ok after := by
  cases chosen with
  | true => exact same rfl
  | false => exact ⟨fun _ => ⟨item, rfl⟩, fun _ => ⟨masked, rfl⟩⟩

theorem maskMembers_cons {key : Option String} {item : PythonValue φ}
    {rest : List (Option String × PythonValue φ)} {chosen : Option String → Bool} :
    (∃ masked, maskMembers mask chosen ((key, item) :: rest) = .ok masked) ↔
      (∃ after, maskIf (chosen key) mask item = .ok after) ∧
        ∃ others, maskMembers mask chosen rest = .ok others := by
  simp only [maskMembers, bind_ok, pure_ok]
  constructor
  · intro done
    obtain ⟨_, first, one, others, later, _⟩ := done
    exact ⟨⟨first, one⟩, others, later⟩
  · intro done
    obtain ⟨⟨first, one⟩, others, later⟩ := done
    exact ⟨_, first, one, others, later, rfl⟩

theorem maskItems_cons {item : PythonValue φ} {rest : List (PythonValue φ)} {start : Nat} :
    (∃ masked, maskItems mask selected start (item :: rest) = .ok masked) ↔
      (∃ after, maskIf (selected start) mask item = .ok after) ∧
        ∃ others, maskItems mask selected (start + 1) rest = .ok others := by
  simp only [maskItems, bind_ok, pure_ok]
  constructor
  · intro done
    obtain ⟨_, first, one, others, later, _⟩ := done
    exact ⟨⟨first, one⟩, others, later⟩
  · intro done
    obtain ⟨⟨first, one⟩, others, later⟩ := done
    exact ⟨_, first, one, others, later, rfl⟩

theorem maskMembers_succeeds (same : ∀ name, keySelected token (some name) = true → ∀ item,
      ((∃ after, mask (item.maskWhere (marked.under (.member name))) = .ok after) ↔
        ∃ after, mask item = .ok after)) :
    (∃ masked, maskMembers mask (keySelected token)
      (maskMembersWhere marked members) = .ok masked) ↔
      ∃ masked, maskMembers mask (keySelected token) members = .ok masked := by
  induction members with
  | nil => rfl
  | cons entry rest ih =>
      obtain ⟨key, item⟩ := entry
      cases key with
      | none => rw [maskMembersWhere, maskMembers_cons, maskMembers_cons, ih]
      | some name =>
          rw [maskMembersWhere, maskMembers_cons, maskMembers_cons, ih]
          rw [maskIf_succeeds fun chosen => same name chosen item]

theorem maskItems_succeeds {start : Nat} (same : ∀ index, selected index = true → ∀ item,
      ((∃ after, mask (item.maskWhere (marked.under (.index index))) = .ok after) ↔
        ∃ after, mask item = .ok after)) :
    (∃ masked, maskItems mask selected start (maskItemsWhere marked start items) = .ok masked) ↔
      ∃ masked, maskItems mask selected start items = .ok masked := by
  induction items generalizing start with
  | nil => rfl
  | cons item rest ih =>
      rw [maskItemsWhere, maskItems_cons, maskItems_cons, ih]
      rw [maskIf_succeeds fun chosen => same start chosen item]

theorem maskPointer_mapping :
    (∃ masked, maskPointer shown numbers pointer (token :: tokens)
      (.mapping members) = .ok masked) ↔
      ∃ masked, maskMembers (maskPointer shown numbers pointer tokens) (keySelected token) members =
        .ok masked := by
  simp only [maskPointer, bind_ok, pure_ok]
  constructor
  · intro done
    obtain ⟨_, inner, masks, _⟩ := done
    exact ⟨inner, masks⟩
  · intro done
    obtain ⟨inner, masks⟩ := done
    exact ⟨_, inner, masks, rfl⟩

theorem maskPointer_sequence :
    (∃ masked, maskPointer shown numbers pointer (token :: tokens) (.sequence items) = .ok masked) ↔
      ∃ selected, selectedIndex shown numbers pointer token = .ok selected ∧
        ∃ masked, maskItems (maskPointer shown numbers pointer tokens) selected 0 items =
          .ok masked := by
  simp only [maskPointer, bind_ok, pure_ok]
  constructor
  · intro done
    obtain ⟨_, selected, chosen, inner, masks, _⟩ := done
    exact ⟨selected, chosen, inner, masks⟩
  · intro done
    obtain ⟨selected, chosen, inner, masks⟩ := done
    exact ⟨_, selected, chosen, inner, masks, rfl⟩

theorem maskPointer_succeeds
    (apart : ∀ position, marked position = true → pointerPasses tokens position = false) :
    (∃ masked, maskPointer shown numbers pointer tokens (value.maskWhere marked) = .ok masked) ↔
      ∃ masked, maskPointer shown numbers pointer tokens value = .ok masked := by
  induction tokens generalizing value marked with
  | nil => exact ⟨fun _ => ⟨_, rfl⟩, fun _ => ⟨_, rfl⟩⟩
  | cons token remaining ih =>
      have plain : marked [] = false := by
        cases here : marked [] with
        | false => rfl
        | true => cases apart [] here
      have below {step : JsonStep} (stands : tokenStands token step = true) :
          ∀ rest, marked.under step rest = true → pointerPasses remaining rest = false := by
        intro rest marks
        have passes := apart (step :: rest) marks
        rwa [pointerPasses, stands, Bool.true_and] at passes
      cases value with
      | mapping members =>
          rw [PythonValue.maskWhere_mapping plain, maskPointer_mapping, maskPointer_mapping]
          apply maskMembers_succeeds
          intro name chosen item
          exact ih (below (keySelected_stands.symm.trans chosen))
      | sequence items =>
          rw [PythonValue.maskWhere_sequence plain, maskPointer_sequence, maskPointer_sequence]
          apply exists_congr
          intro selected
          apply and_congr_right
          intro chosen
          apply maskItems_succeeds
          intro index picked item
          exact ih (below ((selectedIndex_stands chosen index).symm.trans picked))
      | _ => rw [PythonValue.maskWhere_leaf rfl plain]

theorem maskPointers_succeeds {decoded : List (String × List String)}
    (apart : ∀ first ∈ decoded, ∀ second ∈ decoded, pathAbove first.2 second.2 = false) :
    (∃ masked, maskPointers shown numbers decoded value = .ok masked) ↔
      ∀ entry ∈ decoded, ∃ masked, maskPointer shown numbers entry.1 entry.2 value =
        .ok masked := by
  induction decoded generalizing value with
  | nil => exact ⟨fun _ entry absent => absurd absent List.not_mem_nil, fun _ => ⟨value, rfl⟩⟩
  | cons entry rest ih =>
      obtain ⟨pointer, tokens⟩ := entry
      have inner : ∀ first ∈ rest, ∀ second ∈ rest, pathAbove first.2 second.2 = false :=
          fun first one second two =>
        apart first (List.mem_cons_of_mem _ one) second (List.mem_cons_of_mem _ two)
      have kept : ∀ later ∈ rest, ((∃ masked, maskPointer shown numbers later.1 later.2
          (value.maskWhere (pointerMarks tokens)) = .ok masked) ↔
            ∃ masked, maskPointer shown numbers later.1 later.2 value = .ok masked) :=
                fun later listed =>
        maskPointer_succeeds fun position marks =>
          passes_apart (apart _ List.mem_cons_self later (List.mem_cons_of_mem _ listed)) marks
      rw [List.forall_mem_cons]
      constructor
      · intro done
        obtain ⟨_, all⟩ := done
        simp only [maskPointers, bind_ok] at all
        obtain ⟨first, one, others⟩ := all
        rw [maskPointer_where one] at others
        refine ⟨⟨first, one⟩, fun later listed => (kept later listed).mp ?_⟩
        exact (ih inner).mp ⟨_, others⟩ later listed
      · intro done
        obtain ⟨⟨first, one⟩, others⟩ := done
        obtain ⟨masked, all⟩ := (ih inner).mpr fun later listed =>
          (kept later listed).mpr (others later listed)
        refine ⟨masked, ?_⟩
        simp only [maskPointers, bind_ok]
        exact ⟨first, one, by rw [maskPointer_where one]; exact all⟩

theorem pointersMark_perm {paths permuted : List (List String)} (perm : paths.Perm permuted) :
    pointersMark paths = pointersMark permuted := by
  funext position
  rw [Bool.eq_iff_iff, pointersMark, pointersMark, List.any_eq_true, List.any_eq_true]
  constructor
  · intro found
    obtain ⟨path, listed, marks⟩ := found
    exact ⟨path, perm.mem_iff.mp listed, marks⟩
  · intro found
    obtain ⟨path, listed, marks⟩ := found
    exact ⟨path, perm.mem_iff.mpr listed, marks⟩

end

/-- The tokens of a pointer that decodes. -/
def pointerTokens (pointer : String) : List String :=
  (decodeRedactionPointer pointer).toOption.getD []

theorem decodePairs_ok :
    decodePairs pointers = .ok decoded ↔
      (∀ pointer ∈ pointers, ∃ tokens, decodeRedactionPointer pointer = .ok tokens) ∧
      decoded = pointers.map fun pointer => (pointer, pointerTokens pointer) := by
  induction pointers generalizing decoded with
  | nil =>
      have none : decodePairs [] = .ok [] := rfl
      simp [none, eq_comm]
  | cons pointer rest ih =>
      have head : decodePairs (pointer :: rest) = (do
          let tokens ← decodeRedactionPointer pointer
          let others ← decodePairs rest
          return (pointer, tokens) :: others) := by
        simp [decodePairs, List.mapM_cons]
      rw [head, List.forall_mem_cons, List.map_cons]
      simp only [bind_ok, pure_ok, ih]
      constructor
      · intro done
        obtain ⟨tokens, first, others, ⟨all, rfl⟩, rfl⟩ := done
        exact ⟨⟨⟨tokens, first⟩, all⟩, by rw [pointerTokens, first]; rfl⟩
      · intro done
        obtain ⟨⟨⟨tokens, first⟩, all⟩, rfl⟩ := done
        exact ⟨tokens, first, _, ⟨all, rfl⟩, by rw [pointerTokens, first]; rfl⟩

section

variable {shown : String → String} {numbers : NumberSupport φ} {text : TextSupport}
  {raw : RawValue φ}
variable {schema : Option JsonSchema} {pointers permuted : List String} {output : PythonValue φ}

theorem redactJsonPointers_ok :
    redactJsonPointers shown numbers text raw pointers schema = .ok output ↔
    (pointers.length ≤ maxRedactionPointers ∧ pointers.Nodup ∧
      ∀ pointer ∈ pointers, ∃ tokens, decodeRedactionPointer pointer = .ok tokens) ∧
    ∃ projected, canonicalRedaction numbers text raw schema = .ok projected ∧
      maskPointers shown numbers (pointers.map fun pointer => (pointer, pointerTokens pointer))
        projected = .ok output := by
  simp only [redactJsonPointers, bind_ok, require_ok, decodePairs_ok]
  constructor
  · intro done
    obtain ⟨_, few, decoded, ⟨each, rfl⟩, _, distinct, projected, canonical, masked⟩ := done
    exact ⟨⟨few, distinct, each⟩, projected, canonical, masked⟩
  · intro done
    obtain ⟨⟨few, distinct, each⟩, projected, canonical, masked⟩ := done
    exact ⟨(), few, _, ⟨each, rfl⟩, (), distinct, projected, canonical, masked⟩

theorem redactJsonPointers_succeeds (apart : ∀ first ∈ pointers, ∀ second ∈ pointers,
      pathAbove (pointerTokens first) (pointerTokens second) = false) :
    (∃ output, redactJsonPointers shown numbers text raw pointers schema = .ok output) ↔
      (pointers.length ≤ maxRedactionPointers ∧ pointers.Nodup ∧
        ∀ pointer ∈ pointers, ∃ tokens, decodeRedactionPointer pointer = .ok tokens) ∧
      ∃ projected, canonicalRedaction numbers text raw schema = .ok projected ∧
        ∀ pointer ∈ pointers, ∃ masked,
          maskPointer shown numbers pointer (pointerTokens pointer) projected = .ok masked := by
  have separate : ∀ first ∈ pointers.map fun pointer => (pointer, pointerTokens pointer),
      ∀ second ∈ pointers.map fun pointer => (pointer, pointerTokens pointer),
          pathAbove first.2 second.2 = false := by
    intro first one second two
    obtain ⟨pointer, inside, rfl⟩ := List.mem_map.mp one
    obtain ⟨other, within, rfl⟩ := List.mem_map.mp two
    exact apart pointer inside other within
  have alone (projected : PythonValue φ) :
      (∃ masked, maskPointers shown numbers (pointers.map fun pointer =>
        (pointer, pointerTokens pointer)) projected = .ok masked) ↔ ∀ pointer ∈ pointers, ∃ masked,
          maskPointer shown numbers pointer (pointerTokens pointer) projected = .ok masked := by
    rw [maskPointers_succeeds separate, List.forall_mem_map]
  simp only [redactJsonPointers_ok]
  constructor
  · intro done
    obtain ⟨output, accepted, projected, canonical, masked⟩ := done
    exact ⟨accepted, projected, canonical, (alone projected).mp ⟨output, masked⟩⟩
  · intro done
    obtain ⟨accepted, projected, canonical, each⟩ := done
    obtain ⟨output, masked⟩ := (alone projected).mpr each
    exact ⟨output, accepted, projected, canonical, masked⟩

end

/-- Two orders of one pointer list give one result where both succeed, and they succeed together
unless one of the pointers lies above another. -/
theorem pointer_order_irrelevant {φ : Type} (shown : String → String) (numbers : NumberSupport φ)
    (text : TextSupport)
    (value : RawValue φ) (schema : Option JsonSchema) {pointers permuted : List String}
    (permutation : pointers.Perm permuted) :
    (∀ left right, redactJsonPointers shown numbers text value pointers schema = .ok left →
      redactJsonPointers shown numbers text value permuted schema = .ok right → left = right) ∧
    ((∀ first ∈ pointers, ∀ second ∈ pointers,
      pathAbove (pointerTokens first) (pointerTokens second) = false) →
      ((∃ output, redactJsonPointers shown numbers text value pointers schema = .ok output) ↔
        ∃ output, redactJsonPointers shown numbers text value permuted schema = .ok output)) := by
  have listed {pointer : String} : pointer ∈ pointers ↔ pointer ∈ permuted := permutation.mem_iff
  constructor
  · intro left right one two
    obtain ⟨_, projected, canonical, masked⟩ := redactJsonPointers_ok.mp one
    obtain ⟨_, same, again, other⟩ := redactJsonPointers_ok.mp two
    obtain rfl := Except.ok.inj (canonical.symm.trans again)
    rw [maskPointers_where masked, maskPointers_where other]
    exact congrArg projected.maskWhere (pointersMark_perm ((permutation.map _).map _))
  · intro apart
    have still : ∀ first ∈ permuted, ∀ second ∈ permuted,
        pathAbove (pointerTokens first) (pointerTokens second) = false :=
            fun first one second two =>
      apart first (listed.mpr one) second (listed.mpr two)
    rw [redactJsonPointers_succeeds apart, redactJsonPointers_succeeds still, permutation.length_eq,
      permutation.nodup_iff]
    simp only [listed]

namespace PythonValue

variable {marked : Marking} {value found : PythonValue φ} {step : JsonStep}
  {position : List JsonStep}

theorem item?_maskMembersWhere {members : List (Option String × PythonValue φ)} {name : String} :
    (mapping (maskMembersWhere marked members)).item? name =
      ((mapping members).item? name).map (·.maskWhere (marked.under (.member name))) := by
  induction members with
  | nil => rfl
  | cons entry rest ih =>
      obtain ⟨key, item⟩ := entry
      simp only [item?] at ih ⊢
      cases key with
      | none => simpa [maskMembersWhere] using ih
      | some other =>
          rw [maskMembersWhere, List.find?_cons, List.find?_cons]
          by_cases same : some other = some name
          · rw [decide_eq_true same]
            obtain rfl := Option.some.inj same
            rfl
          · rw [decide_eq_false same]
            exact ih

theorem getElem?_maskItemsWhere (marked : Marking) (items : List (PythonValue φ))
    (start index : Nat) :
    (maskItemsWhere marked start items)[index]? =
      items[index]?.map (·.maskWhere (marked.under (.index (start + index)))) := by
  induction items generalizing start index with
  | nil => rfl
  | cons item rest ih =>
      cases index with
      | zero => rfl
      | succ index =>
          rw [maskItemsWhere, List.getElem?_cons_succ, List.getElem?_cons_succ, ih, Nat.add_assoc,
            Nat.add_comm 1]

theorem child?_maskWhere (plain : marked [] = false) :
    (value.maskWhere marked).child? step = (value.child? step).map
      (·.maskWhere (marked.under step)) := by
  cases value with
  | mapping members =>
      rw [maskWhere_mapping plain]
      cases step with
      | member name => exact item?_maskMembersWhere
      | index index => rfl
  | sequence items =>
      rw [maskWhere_sequence plain]
      cases step with
      | member name => rfl
      | index index =>
          have listed := getElem?_maskItemsWhere marked items 0 index
          rw [Nat.zero_add] at listed
          exact listed
  | _ =>
      rw [maskWhere_leaf rfl plain]
      cases step <;> rfl

theorem maskedAt_cons (below : value.child? step = some child)
    (masked : child.MaskedAt position) : value.MaskedAt (step :: position) := by
  obtain ⟨front, back, rfl, marker⟩ := masked
  refine ⟨step :: front, back, rfl, ?_⟩
  rw [at?_cons, below]
  exact marker

theorem maskedAt_maskWhere (located : value.at? position = some found) {front : List JsonStep}
    (inside : front <+: position) (marks : marked front = true) :
      (value.maskWhere marked).MaskedAt position := by
  induction position generalizing value marked front with
  | nil =>
      rw [List.prefix_nil.mp inside] at marks
      rw [maskWhere_root marks]
      exact ⟨[], [], rfl, rfl⟩
  | cons step rest ih =>
      cases here : marked [] with
      | true =>
          rw [maskWhere_root here]
          exact ⟨[], step :: rest, rfl, rfl⟩
      | false =>
          obtain ⟨child, below, later⟩ := Option.bind_eq_some_iff.mp located
          cases front with
          | nil => exact absurd marks (by simp [here])
          | cons head front =>
              obtain ⟨rfl, within⟩ := List.cons_prefix_cons.mp inside
              have follow : (value.maskWhere marked).child? head = _ := child?_maskWhere here
              rw [below, Option.map_some] at follow
              exact maskedAt_cons follow (ih later within marks)

theorem at?_maskWhere (located : value.at? position = some found)
    (plain : ∀ front, front <+: position → marked front = false) :
    (value.maskWhere marked).at? position = some
      (found.maskWhere fun rest => marked (position ++ rest)) := by
  induction position generalizing value marked with
  | nil =>
      obtain rfl := Option.some.inj located
      rfl
  | cons step rest ih =>
      obtain ⟨child, below, later⟩ := Option.bind_eq_some_iff.mp located
      rw [at?_cons, child?_maskWhere (plain [] List.nil_prefix), below, Option.map_some,
        Option.bind_some]
      exact ih later fun front inside =>
        plain (step :: front) (List.cons_prefix_cons.mpr ⟨rfl, inside⟩)

end PythonValue

/-- A step with its name in composed form. -/
def JsonStep.composed (text : TextSupport) : JsonStep → JsonStep
  | .member name => .member (text.nfc name)
  | .index index => .index index

section

variable {text : TextSupport} {numbers : NumberSupport φ} {value found : PythonValue φ}
  {step : JsonStep}

theorem mem_of_item? (kept : (PythonValue.mapping members).item? name = some found) :
      (some name, found) ∈ members := by
  obtain ⟨entry, first, rfl⟩ := Option.map_eq_some_iff.mp kept
  have same : entry.1 = some name := by simpa using List.find?_some first
  rw [← same]
  exact List.mem_of_find?_eq_some first

theorem child?_settled (settled : value.Settled text numbers)
    (below : value.child? step = some found) :
    found.Settled text numbers := by
  cases step with
  | member name => exact item?_settled settled below
  | index index =>
      cases value with
      | sequence items => exact items_settled.mp settled found (List.mem_of_getElem? below)
      | _ => cases below

theorem child?_nfcAll (settled : (value.nfcAll text).Settled text numbers)
    (below : value.child? step = some found) :
    (value.nfcAll text).child? (JsonStep.composed text step) = some (found.nfcAll text) := by
  cases step with
  | member name =>
      cases value with
      | mapping members =>
          refine (item?_mapping settled.1).mpr ?_
          rw [nfcMembers_eq]
          exact List.mem_map.mpr ⟨(some name, found), mem_of_item? below, rfl⟩
      | _ => cases below
  | index index =>
      cases value with
      | sequence items =>
          change (nfcItems text items)[index]? = _
          rw [nfcItems_eq, List.getElem?_map]
          exact congrArg (Option.map _) below
      | _ => cases below

theorem getElem?_sameItems {index : Nat} (same : SameItems lefts rights)
    (listed : lefts[index]? = some found) : ∃ other, rights[index]? = some other ∧
      found.Same other := by
  induction lefts generalizing rights index with
  | nil => simp at listed
  | cons left rest ih =>
      cases rights with
      | nil => exact same.elim
      | cons right others =>
          obtain ⟨head, tail⟩ := same
          cases index with
          | zero =>
              obtain rfl := Option.some.inj listed
              exact ⟨right, rfl, head⟩
          | succ index =>
              have below := ih tail listed
              exact below

theorem child?_same {left right : PythonValue φ} (same : left.Same right)
    (settled : right.Settled text numbers)
    (below : left.child? step = some found) : ∃ other, right.child? step = some other ∧
      found.Same other := by
  cases step with
  | member name =>
      cases left with
      | mapping lefts =>
          cases right with
          | mapping rights =>
              obtain ⟨other, listed, equal⟩ := sameMembers_forall.mp same.2 _ (mem_of_item? below)
              exact ⟨other, (item?_mapping settled.1).mpr listed, equal⟩
          | _ => exact same.elim
      | _ => cases below
  | index index =>
      cases left with
      | sequence lefts =>
          cases right with
          | sequence rights => exact getElem?_sameItems same below
          | _ => exact same.elim
      | _ => cases below

theorem at?_canonical {left right : PythonValue φ} (same : (left.nfcAll text).Same right)
    (composed : (left.nfcAll text).Settled text numbers) (settled : right.Settled text numbers)
    (located : left.at? position = some found) :
    ∃ other, right.at? (position.map (JsonStep.composed text)) = some other ∧
    (found.nfcAll text).Same other ∧
      (found.nfcAll text).Settled text numbers := by
  induction position generalizing left right with
  | nil =>
      obtain rfl := Option.some.inj located
      exact ⟨right, rfl, same, composed⟩
  | cons step rest ih =>
      obtain ⟨child, below, later⟩ := Option.bind_eq_some_iff.mp located
      have inner := child?_nfcAll composed below
      obtain ⟨other, found, equal⟩ := child?_same same settled inner
      obtain ⟨last, reached, agrees⟩ :=
        ih equal (child?_settled composed inner) (child?_settled settled found) later
      refine ⟨last, ?_, agrees⟩
      rw [List.map_cons, PythonValue.at?_cons, found]
      exact reached

end

/-- A value as it is shown where nothing masks it: its own kind, with its scalar, its names or its
length. -/
def RawValue.ShownAs (text : TextSupport) : RawValue φ → PythonValue φ → Prop
  | .scalar plain, shown => shown = plain.toValue.nfcAll text
  | .secret _, _ => False
  | .mapping members, shown => ∃ others, shown = .mapping others ∧
      ∀ key, key ∈ others.map Prod.fst ↔ ∃ name ∈ members.map Prod.fst, key = some (text.nfc name)
  | .sequence items, shown => ∃ others, shown = .sequence others ∧ others.length = items.length
  | .other typeName, shown => shown = .str (text.nfc ("<" ++ typeName ++ ">"))

section

variable {text : TextSupport} {numbers : NumberSupport φ} {marked : Marking}
  {visit : RedactionVisit φ}
variable {output shown : PythonValue φ}

theorem same_leaf {left right : PythonValue φ} (leaf : left.leaf = true) (same : left.Same right) :
    right = left := by
  cases left with
  | mapping | sequence => cases leaf
  | null | bool | int | float | str | other =>
      cases right with
      | null | bool | int | float | str | other =>
          first
            | exact same.elim
            | rfl
            | exact congrArg _ (Eq.symm same)
      | mapping | sequence => exact same.elim

theorem redactMembers_keys
    (done : RawValue.redactMembers text schema members = .ok redacted) (key : Option String) :
    key ∈ redacted.map Prod.fst ↔ ∃ name ∈ members.map Prod.fst, key = some name := by
  induction members generalizing redacted with
  | nil =>
      cases done
      simp
  | cons entry rest ih =>
      obtain ⟨name, item⟩ := entry
      simp only [RawValue.redactMembers, bind_ok, pure_ok] at done
      obtain ⟨first, _, others, later, rfl⟩ := done
      have known := ih later
      have put : key ∈ (putMember name first others).map Prod.fst ↔
          key = some name ∨ key ∈ others.map Prod.fst := by
        rw [putMember]
        cases found : others.find? fun entry => entry.1 = some name with
        | none => rw [List.map_cons, List.mem_cons]
        | some entry =>
            obtain ⟨label, kept⟩ := entry
            have rest : key ∈ (others.filter fun entry => entry.1 ≠ some name).map Prod.fst ↔
                key ∈ others.map Prod.fst ∧ key ≠ some name := by
              simp only [List.mem_map, List.mem_filter, decide_eq_true_eq]
              constructor
              · intro inside
                obtain ⟨entry, ⟨member, differs⟩, rfl⟩ := inside
                exact ⟨⟨entry, member, rfl⟩, differs⟩
              · intro inside
                obtain ⟨⟨entry, member, rfl⟩, differs⟩ := inside
                exact ⟨entry, ⟨member, differs⟩, rfl⟩
            simp only [List.map_cons, List.mem_cons, rest]
            by_cases same : key = some name <;> simp [same]
      rw [put, known, List.map_cons]
      simp

theorem redactItems_length
    {start : Nat} (done : RawValue.redactItems text schema start items = .ok redacted) :
    redacted.length = items.length := by
  induction items generalizing redacted start with
  | nil =>
      cases done
      rfl
  | cons item rest ih =>
      simp only [RawValue.redactItems, bind_ok, pure_ok] at done
      obtain ⟨first, _, others, later, rfl⟩ := done
      rw [List.length_cons, List.length_cons, ih later]

theorem sameItems_size (same : SameItems lefts rights) :
    rights.length = lefts.length :=
  (sameItems_iff_forall₂.mp same).length_eq.symm

theorem maskMembersWhere_keys :
    (maskMembersWhere marked members).map Prod.fst = members.map Prod.fst := by
  induction members with
  | nil => rfl
  | cons entry rest ih =>
      obtain ⟨key, item⟩ := entry
      cases key <;> rw [maskMembersWhere, List.map_cons, List.map_cons, ih]

theorem maskItemsWhere_length {start : Nat} :
    (maskItemsWhere marked start items).length = items.length := by
  induction items generalizing start with
  | nil => rfl
  | cons item rest ih => rw [maskItemsWhere, List.length_cons, List.length_cons, ih]

theorem sameMembers_keys (same : (PythonValue.mapping lefts).Same (.mapping rights))
    (distinct : (lefts.map Prod.fst).Nodup)
    (key : Option String) : key ∈ rights.map Prod.fst ↔ key ∈ lefts.map Prod.fst := by
  have inside : lefts.map Prod.fst ⊆ rights.map Prod.fst := by
    intro known listed
    obtain ⟨member, present, rfl⟩ := List.mem_map.mp listed
    obtain ⟨other, found, _⟩ := sameMembers_forall.mp same.2 member present
    exact List.mem_map.mpr ⟨_, found, rfl⟩
  have size : (rights.map Prod.fst).length ≤ (lefts.map Prod.fst).length := by
    rw [List.length_map, List.length_map, same.1]
  exact ((List.subperm_of_subset distinct inside).perm_of_length_le size).mem_iff.symm

/-- What is left open is shown as it is. -/
theorem shownAs_open (redacted : visit.redact text = .ok output) (plain : ¬visit.Masks text)
    (decided : ownMask text visit.schema visit.fieldName = .ok false)
    (settled : (output.nfcAll text).Settled text numbers) (same : (output.nfcAll text).Same shown)
    (open_ : marked [] = false) : visit.value.ShownAs text (shown.maskWhere marked) := by
  rw [RedactionVisit.redact] at redacted
  cases kind : visit.value with
  | secret secret => exact absurd (.inr ⟨secret, kind⟩) plain
  | scalar found =>
      rw [kind, RawValue.redact.eq_def, decided] at redacted
      cases redacted
      have leaf : (found.toValue.nfcAll text).leaf = true := by cases found <;> rfl
      rw [same_leaf leaf same, PythonValue.maskWhere_leaf leaf open_]
      rfl
  | other typeName =>
      rw [kind, RawValue.redact.eq_def, decided] at redacted
      cases redacted
      rw [same_leaf rfl same, PythonValue.maskWhere_leaf rfl open_]
      rfl
  | mapping members =>
      rw [kind, RawValue.redact_mapping decided] at redacted
      obtain ⟨masked, inner, rfl⟩ := redacted
      cases shown with
      | mapping others =>
          refine ⟨maskMembersWhere marked others, PythonValue.maskWhere_mapping open_,
            fun key => ?_⟩
          rw [maskMembersWhere_keys, sameMembers_keys same settled.1, nfcMembers_eq,
            List.map_map, List.mem_map]
          constructor
          · intro named
            obtain ⟨entry, listed, rfl⟩ := named
            obtain ⟨name, present, spelled⟩ :=
              (redactMembers_keys inner entry.1).mp (List.mem_map_of_mem listed)
            exact ⟨name, present, congrArg (Option.map text.nfc) spelled⟩
          · intro named
            obtain ⟨name, present, rfl⟩ := named
            obtain ⟨entry, listed, spelled⟩ :=
              List.mem_map.mp ((redactMembers_keys inner _).mpr ⟨name, present, rfl⟩)
            exact ⟨entry, listed, congrArg (Option.map text.nfc) spelled⟩
      | _ => exact same.elim
  | sequence items =>
      rw [kind, RawValue.redact_sequence decided] at redacted
      obtain ⟨masked, inner, rfl⟩ := redacted
      cases shown with
      | sequence others =>
          refine ⟨maskItemsWhere marked 0 others, PythonValue.maskWhere_sequence open_, ?_⟩
          rw [maskItemsWhere_length, sameItems_size same, nfcItems_eq, List.length_map,
            redactItems_length inner]
      | _ => exact same.elim

/-- The redactor masks the position itself or one above it. -/
def RedactionVisit.Hides (text : TextSupport) (visit : RedactionVisit φ)
    (position : List JsonStep) : Prop :=
  ∃ front above, front <+: position ∧ visit.at? front = some above ∧ above.Masks text

variable {inner : RedactionVisit φ} {position : List JsonStep}

theorem ownMask_of_redact (redacted : visit.redact text = .ok output) (plain : ¬visit.Masks text) :
    ownMask text visit.schema visit.fieldName = .ok false := by
  cases decided : ownMask text visit.schema visit.fieldName with
  | error reason =>
      rw [RedactionVisit.redact, RawValue.redact.eq_def, decided] at redacted
      cases redacted
  | ok masked =>
      cases masked with
      | true => exact absurd (.inl decided) plain
      | false => rfl

theorem at?_redact (redacted : visit.redact text = .ok output)
    (located : visit.at? position = some inner)
    (shows : ¬visit.Hides text position) : ∃ part, inner.redact text = .ok part ∧
      output.at? position = some part := by
  induction position generalizing visit output with
  | nil =>
      obtain rfl := Option.some.inj located
      exact ⟨output, redacted, rfl⟩
  | cons step rest ih =>
      obtain ⟨middle, below, later⟩ := Option.bind_eq_some_iff.mp located
      have plain : ¬visit.Masks text := fun masks => shows ⟨[], visit, List.nil_prefix, rfl, masks⟩
      have followed := RedactionVisit.child_redact redacted plain
        (ownMask_of_redact redacted plain) step
      rw [below] at followed
      obtain ⟨part, follow, found⟩ := followed
      have open_ : ¬middle.Hides text rest := by
        intro hides
        obtain ⟨front, above, inside, reached, masks⟩ := hides
        refine shows ⟨step :: front, above, List.cons_prefix_cons.mpr ⟨rfl, inside⟩, ?_, masks⟩
        rw [RedactionVisit.at?, below]
        exact reached
      rw [PythonValue.at?_cons, found]
      exact ih follow later open_

theorem maskedAt_redact_hides (redacted : visit.redact text = .ok output)
    (located : visit.at? position = some inner)
    (hides : visit.Hides text position) : output.MaskedAt position := by
  induction position generalizing visit output with
  | nil =>
      obtain ⟨front, above, inside, reached, masks⟩ := hides
      obtain rfl := List.prefix_nil.mp inside
      obtain rfl := Option.some.inj reached
      rw [RedactionVisit.redact_of_masks redacted masks]
      exact ⟨[], [], rfl, rfl⟩
  | cons step rest ih =>
      by_cases masks : visit.Masks text
      · rw [RedactionVisit.redact_of_masks redacted masks]
        exact ⟨[], step :: rest, rfl, rfl⟩
      · obtain ⟨middle, below, later⟩ := Option.bind_eq_some_iff.mp located
        have followed := RedactionVisit.child_redact redacted masks
          (ownMask_of_redact redacted masks) step
        rw [below] at followed
        obtain ⟨part, follow, found⟩ := followed
        obtain ⟨front, above, inside, reached, hidden⟩ := hides
        cases front with
        | nil =>
            obtain rfl := Option.some.inj reached
            exact absurd hidden masks
        | cons head front =>
            obtain ⟨rfl, within⟩ := List.cons_prefix_cons.mp inside
            rw [RedactionVisit.at?, below] at reached
            exact PythonValue.maskedAt_cons found
              (ih follow later ⟨front, above, within, reached, hidden⟩)

theorem maskedAt_keeps {value : PythonValue φ} (masked : value.MaskedAt position) :
    (value.maskWhere marked).MaskedAt position := by
  obtain ⟨front, back, rfl, marker⟩ := masked
  by_cases plain : ∀ above, above <+: front → marked above = false
  · refine ⟨front, back, rfl, ?_⟩
    rw [PythonValue.at?_maskWhere marker plain, PythonValue.maskWhere_redacted]
  · simp only [not_forall, Bool.not_eq_false] at plain
    obtain ⟨above, inside, marks⟩ := plain
    obtain ⟨first, second, same, found⟩ := PythonValue.maskedAt_maskWhere marker inside marks
    exact ⟨first, second ++ back, by rw [same, List.append_assoc], found⟩

theorem canonicalRedaction_ok
    (canonical : canonicalRedaction numbers text raw schema = .ok projected) :
    ∃ redacted, raw.redact text schema none = .ok redacted ∧
    (redacted.nfcAll text).Settled text numbers ∧
      projected.Settled text numbers ∧ (redacted.nfcAll text).Same projected := by
  simp only [canonicalRedaction, bind_ok, requireSome_ok] at canonical
  obtain ⟨redacted, done, bytes, written, loaded⟩ := canonical
  obtain ⟨decoded, read, settled, rewritten⟩ := canonicalJsonBytes_loaded written
  obtain rfl := Option.mem_unique read loaded
  have same := (canonicalJsonBytes_eq_iff written rewritten).mp rfl
  rw [settled_nfcAll settled] at same
  obtain ⟨normal, document, normalized, _⟩ := canonicalJsonBytes_ok.mp written
  obtain ⟨rfl, composed⟩ := normalize_settled normalized
  exact ⟨redacted, done, composed, settled, same⟩

end

end

/-- A redaction by pointers masks what the redactor hides and what a pointer stands for in the
composed value, with everything below, and shows the rest as it is. -/
theorem redactJsonPointers_exact {φ : Type} (shown : String → String) (numbers : NumberSupport φ)
    (text : TextSupport) (keeps : text.KeepsAscii) (value : RawValue φ) (pointers : List String)
    (schema : Option JsonSchema) (output : PythonValue φ)
    (redacted : redactJsonPointers shown numbers text value pointers schema = .ok output)
    (position : List JsonStep) (inner : RedactionVisit φ)
    (located : RedactionVisit.at? ⟨schema, none, value⟩ position = some inner) :
    let composed := position.map (JsonStep.composed text)
    let matched := ∃ pointer ∈ pointers, ∃ front, front <+: composed ∧
      pointerMarks (pointerTokens pointer) front = true
    let hidden := RedactionVisit.Hides text ⟨schema, none, value⟩ position
    (matched ∨ hidden → output.MaskedAt composed) ∧
      (¬matched → ¬hidden → ∃ found, output.at? composed = some found ∧
          inner.value.ShownAs text found) := by
  intro composed matched hidden
  obtain ⟨_, projected, canonical, masked⟩ := redactJsonPointers_ok.mp redacted
  obtain ⟨copy, done, normal, settled, same⟩ := canonicalRedaction_ok canonical
  rw [maskPointers_where masked, List.map_map]
  have marks {front : List JsonStep} :
      pointersMark (pointers.map (Prod.snd ∘ fun pointer => (pointer, pointerTokens pointer)))
        front = true ↔
        ∃ pointer ∈ pointers, pointerMarks (pointerTokens pointer) front = true := by
    simp [pointersMark]
  have visited : RedactionVisit.redact text ⟨schema, none, value⟩ = .ok copy := done
  by_cases hides : hidden
  · have marker := maskedAt_redact_hides visited located hides
    refine ⟨fun _ => ?_, fun _ shows => absurd hides shows⟩
    apply maskedAt_keeps
    obtain ⟨front, back, split, found⟩ := marker
    obtain ⟨other, reached, equal, _⟩ := at?_canonical same normal settled found
    have plain : (redactedStr : PythonValue φ).nfcAll text = redactedStr :=
      congrArg PythonValue.str (keeps "[REDACTED]" (plain_of_all (by decide)))
    rw [plain] at equal
    refine ⟨front.map (JsonStep.composed text), back.map (JsonStep.composed text), ?_, ?_⟩
    · rw [← List.map_append, ← split]
    · rw [reached, same_leaf rfl equal]
  · obtain ⟨part, follow, found⟩ := at?_redact visited located hides
    obtain ⟨other, reached, equal, composedPart⟩ := at?_canonical same normal settled found
    constructor
    · intro either
      rcases either with ⟨pointer, listed, front, inside, stands⟩ | hides
      · exact PythonValue.maskedAt_maskWhere reached inside (marks.mpr ⟨pointer, listed, stands⟩)
      · contradiction
    · intro unmatched _
      have plain : ∀ front, front <+: composed →
          pointersMark (pointers.map (Prod.snd ∘ fun pointer => (pointer, pointerTokens pointer)))
              front = false := by
        intro front inside
        rw [← Bool.not_eq_true]
        intro marked
        obtain ⟨pointer, listed, stands⟩ := marks.mp marked
        exact unmatched ⟨pointer, listed, front, inside, stands⟩
      refine ⟨_, PythonValue.at?_maskWhere reached plain, ?_⟩
      have open_ : ¬inner.Masks text := fun masks =>
        hides ⟨position, inner, List.prefix_refl _, located, masks⟩
      have root := plain composed (List.prefix_refl _)
      rw [← List.append_nil composed] at root
      exact shownAs_open follow open_ (ownMask_of_redact follow open_) composedPart equal root

theorem PythonValue.at?_append {φ : Type} {value : PythonValue φ} {front back : List JsonStep} :
    value.at? (front ++ back) = (value.at? front).bind fun inner => inner.at? back := by
  induction front generalizing value with
  | nil => rfl
  | cons step rest ih =>
      rw [List.cons_append, at?_cons, at?_cons, Option.bind_assoc]
      exact congrArg _ (funext fun child => ih)

theorem index_plain {index : Nat} {character : Char}
    (written : character ∈ (toString index).toList) :
    character.toNat < 128 := by
  rw [Nat.toString_eq_ofList_toDigits, String.toList_ofList] at written
  have digit := isDigit_toDigits written
  simp only [JsonText.isDigit, Bool.and_eq_true, decide_eq_true_eq, Char.le_def,
    UInt32.le_iff_toNat_le] at digit
  have upper : character.val.toNat ≤ 57 := digit.2
  exact Nat.lt_of_le_of_lt upper (by decide)

theorem composed_token {text : TextSupport} (keeps : text.KeepsAscii) (step : JsonStep) :
    text.nfc (JsonStep.composed text step).token = (JsonStep.composed text step).token := by
  cases step with
  | member name => exact text.nfc_idempotent name
  | index index =>
      refine keeps (toString index) ?_
      intro character written
      exact index_plain written

theorem pointerMarks_composed {text : TextSupport} (keeps : text.KeepsAscii)
    {front position : List JsonStep} (inside : front <+: position.map (JsonStep.composed text))
    (marks : pointerMarks tokens front = true) :
      pointerMarks (tokens.map text.nfc) front = true := by
  induction tokens generalizing front position with
  | nil => exact marks
  | cons token tokens ih =>
      cases front with
      | nil => cases marks
      | cons step front =>
          cases position with
          | nil => cases List.prefix_nil.mp inside
          | cons head rest =>
              obtain ⟨rfl, within⟩ := List.cons_prefix_cons.mp inside
              rw [pointerMarks, Bool.and_eq_true] at marks
              have stands : tokenStands (text.nfc token) (JsonStep.composed text head) = true := by
                have either := marks.1
                simp only [tokenStands, Bool.or_eq_true, decide_eq_true_eq] at either ⊢
                rcases either with rfl | rfl
                · exact .inl (keeps "*" (plain_of_all (by decide)))
                · exact .inr (composed_token keeps head)
              rw [List.map_cons, pointerMarks, stands, ih within marks.2, Bool.and_self]

theorem maskedAt_shown {φ : Type} {text : TextSupport} {value : RawValue φ}
    {output found : PythonValue φ}
    (located : output.at? position = some found) (shows : value.ShownAs text found) :
    output.MaskedAt position ↔ value.ShownAs text redactedStr := by
  constructor
  · intro masked
    obtain ⟨front, back, rfl, marker⟩ := masked
    rw [PythonValue.at?_append, marker, Option.bind_some] at located
    cases back with
    | nil =>
        obtain rfl := Option.some.inj located
        exact shows
    | cons step rest => cases step <;> cases located
  · intro reads
    have same : found = redactedStr := by
      cases value with
      | scalar | other => exact shows.trans reads.symm
      | secret => exact reads.elim
      | mapping | sequence =>
          obtain ⟨_, impossible, _⟩ := reads
          cases impossible
    exact ⟨position, [], (List.append_nil _).symm, same ▸ located⟩

/-- A redaction masks whatever a pointer names, its names composed as the output's are, and shows
the rest, just when every position that is named so is one the tokens stand for as they are given,
one the redactor hides or one that reads as the marker. -/
theorem named_masked_iff {φ : Type} (shown : String → String) (numbers : NumberSupport φ)
    (text : TextSupport) (keeps : text.KeepsAscii) (value : RawValue φ) (pointers : List String)
    (schema : Option JsonSchema) (output : PythonValue φ)
    (redacted : redactJsonPointers shown numbers text value pointers schema = .ok output) :
    let composed := fun position : List JsonStep => position.map (JsonStep.composed text)
    let named := fun position => ∃ pointer ∈ pointers, ∃ front, front <+: composed position ∧
      pointerMarks ((pointerTokens pointer).map text.nfc) front = true
    let matched := fun position => ∃ pointer ∈ pointers, ∃ front, front <+: composed position ∧
      pointerMarks (pointerTokens pointer) front = true
    let hidden := RedactionVisit.Hides text ⟨schema, none, value⟩
    (∀ position inner, RedactionVisit.at? ⟨schema, none, value⟩ position = some inner →
      (named position → output.MaskedAt (composed position)) ∧
      (¬named position → ¬hidden position →
        ∃ found, output.at? (composed position) = some found ∧ inner.value.ShownAs text found)) ↔
    ∀ position inner, RedactionVisit.at? ⟨schema, none, value⟩ position = some inner →
      named position → matched position ∨ hidden position ∨
          inner.value.ShownAs text redactedStr := by
  intro composed named matched hidden
  have names : ∀ position, matched position → named position := by
    rintro position ⟨pointer, listed, front, inside, stands⟩
    exact ⟨pointer, listed, front, inside, pointerMarks_composed keeps inside stands⟩
  refine forall_congr' fun position => forall_congr' fun inner => forall_congr' fun located => ?_
  obtain ⟨masks, shows⟩ :=
    redactJsonPointers_exact shown numbers text keeps value pointers schema output redacted
    position inner located
  constructor
  · rintro ⟨covered, _⟩ name
    by_cases stands : matched position
    · exact .inl stands
    by_cases hides : hidden position
    · exact .inr (.inl hides)
    obtain ⟨found, reached, shown⟩ := shows stands hides
    exact .inr (.inr ((maskedAt_shown reached shown).mp (covered name)))
  · intro covers
    refine ⟨fun name => ?_, fun unnamed visible =>
      shows (fun stands => unnamed (names position stands)) visible⟩
    by_cases stands : matched position
    · exact masks (.inl stands)
    by_cases hides : hidden position
    · exact masks (.inr hides)
    obtain ⟨found, reached, shown⟩ := shows stands hides
    rcases covers name with stands | hides | reads
    · contradiction
    · contradiction
    · exact (maskedAt_shown reached shown).mpr reads

theorem canonicalRedaction_of {φ : Type} {numbers : NumberSupport φ} {text : TextSupport}
    {raw : RawValue φ}
    {copy : PythonValue φ} (redacted normal : PythonValue φ) (document : JsonValue)
    (done : raw.redact text schema none = .ok redacted)
    (normalized : redacted.normalize text numbers = .ok normal)
    (written : normal.WrittenAs numbers document) (read : JsonText.NumbersRead document)
    (loaded : PythonValue.ofJson numbers document = some copy) :
    canonicalRedaction numbers text raw schema = .ok copy := by
  simp only [canonicalRedaction, bind_ok, requireSome_ok]
  exact ⟨redacted, done, _, canonicalJsonBytes_ok.mpr ⟨normal, document, normalized, written, rfl⟩,
    (jsonLoads_written read).trans loaded⟩

namespace PointerExample

def text : TextSupport := MaskedLabels.asciiText

theorem text_keepsAscii : text.KeepsAscii := fun _ _ => rfl

/-- One member that is null. -/
def document : RawValue Bool := .mapping [("a", .scalar .null)]

def copy : PythonValue Bool := .mapping [(some "a", .null)]

theorem document_copy : canonicalRedaction halfSupport text document none = .ok copy :=
  canonicalRedaction_of copy copy (.object [("a", .scalar .null)]) rfl rfl
    ⟨[("a", .scalar .null)], rfl, rfl⟩ ⟨trivial, trivial⟩ rfl

theorem member_decoded : decodeRedactionPointer "/a" = .ok ["a"] := rfl

theorem other_decoded : decodeRedactionPointer "/b" = .ok ["b"] := rfl

theorem inside_decoded : decodeRedactionPointer "/a/b" = .ok ["a", "b"] := rfl

def redacted (pointers : List String) : Except Rejection (PythonValue Bool) :=
  redactJsonPointers id halfSupport text document pointers none

def maskedCopy : PythonValue Bool := .mapping [(some "a", redactedStr)]

theorem redacted_of {pointers : List String} (few : pointers.length ≤ maxRedactionPointers)
    (distinct : pointers.Nodup)
    (decodes : ∀ pointer ∈ pointers, ∃ tokens, decodeRedactionPointer pointer = .ok tokens) :
    redacted pointers = .ok output ↔
      maskPointers id halfSupport (pointers.map fun pointer => (pointer, pointerTokens pointer))
        copy = .ok output := by
  rw [redacted, redactJsonPointers_ok]
  constructor
  · intro done
    obtain ⟨_, projected, canonical, masked⟩ := done
    obtain rfl := Except.ok.inj (document_copy.symm.trans canonical)
    exact masked
  · intro masked
    exact ⟨⟨few, distinct, decodes⟩, copy, document_copy, masked⟩

theorem memberInside_decode : ∀ pointer ∈ ["/a", "/a/b"], ∃ tokens,
    decodeRedactionPointer pointer = .ok tokens := by
  simp [member_decoded, inside_decoded]

theorem insideMember_decode : ∀ pointer ∈ ["/a/b", "/a"], ∃ tokens,
    decodeRedactionPointer pointer = .ok tokens := by
  simp [member_decoded, inside_decoded]

/-- Masking the member first spares the second pointer from the scalar. -/
theorem overlapping_order : ["/a", "/a/b"].Perm ["/a/b", "/a"] ∧
    redacted ["/a", "/a/b"] = .ok maskedCopy ∧
    ∀ output, redacted ["/a/b", "/a"] ≠ .ok output := by
  refine ⟨List.Perm.swap _ _ _, ?_, fun output succeeded => ?_⟩
  · rw [redacted_of (by decide) (by decide) memberInside_decode]
    rfl
  · rw [redacted_of (by decide) (by decide) insideMember_decode] at succeeded
    cases succeeded

theorem memberOther_decode : ∀ pointer ∈ ["/a", "/b"], ∃ tokens,
    decodeRedactionPointer pointer = .ok tokens := by
  simp [member_decoded, other_decoded]

theorem pointer_order_irrelevant_apart :
    redacted ["/a", "/b"] = .ok maskedCopy ∧ redacted ["/b", "/a"] = .ok maskedCopy := by
  obtain ⟨same, together⟩ := pointer_order_irrelevant id halfSupport text document none
    (List.Perm.swap "/b" "/a" [])
  have first : redacted ["/a", "/b"] = .ok maskedCopy := by
    rw [redacted_of (by decide) (by decide) memberOther_decode]
    rfl
  have apart : ∀ first ∈ ["/a", "/b"], ∀ second ∈ ["/a", "/b"],
      pathAbove (pointerTokens first) (pointerTokens second) = false := by
    simp only [List.forall_mem_cons, pointerTokens, member_decoded, other_decoded]
    decide
  obtain ⟨output, second⟩ := (together apart).mp ⟨_, first⟩
  have equal : maskedCopy = output := same _ _ first second
  rw [equal] at first ⊢
  exact ⟨first, second⟩

theorem named_masked_iff_member : ∃ output, redacted ["/a"] = .ok output ∧
    output.MaskedAt [.member "a"] := by
  have done : redacted ["/a"] = .ok maskedCopy := by
    rw [redacted_of (by decide) (by decide) (by simp [member_decoded])]
    rfl
  have covered := (named_masked_iff id halfSupport text text_keepsAscii document
    ["/a"] none maskedCopy done).mpr
    fun position inner located name =>
      .inl (by simpa only [text, MaskedLabels.asciiText, List.map_id] using name)
  exact ⟨maskedCopy, done, (covered [.member "a"] _ rfl).1
    ⟨"/a", List.mem_singleton_self _, [.member "a"], List.prefix_refl _, rfl⟩⟩

def decomposed : RawValue Bool := .mapping [(decomposedAcute, .scalar .null)]

def composedCopy : PythonValue Bool := .mapping [(some acute, .null)]

theorem decomposed_copy : canonicalRedaction halfSupport acuteSupport decomposed none =
    .ok composedCopy := by
  refine canonicalRedaction_of (.mapping [(some decomposedAcute, .null)]) composedCopy
    (.object [(acute, .scalar .null)])
    ?_ ?_ ⟨[(acute, .scalar .null)], rfl, rfl⟩ ⟨trivial, trivial⟩ rfl
  · rfl
  · simp only [PythonValue.normalize, normalizeMembers, Option.map_some, acute_composed]
    rfl

theorem accent_decoded : decodeRedactionPointer ("/" ++ decomposedAcute) =
    .ok [decomposedAcute] := by
  rfl

theorem composed_unmasked : ¬composedCopy.MaskedAt [.member acute] := by
  intro masked
  obtain ⟨front, back, split, marker⟩ := masked
  cases front with
  | nil => cases marker
  | cons step rest =>
      obtain ⟨same, below⟩ := List.cons_eq_cons.mp split
      obtain ⟨rfl, _⟩ := List.append_eq_nil_iff.mp below.symm
      subst same
      cases marker

/-- Tokens are compared as they are given, so that one that is not composed meets no composed
name. -/
theorem decomposed_unmasked :
    redactJsonPointers id halfSupport acuteSupport decomposed ["/" ++ decomposedAcute] none =
      .ok composedCopy ∧
      pointerMarks ((pointerTokens ("/" ++ decomposedAcute)).map acuteSupport.nfc)
        ([.member decomposedAcute].map (JsonStep.composed acuteSupport)) = true ∧
      ¬composedCopy.MaskedAt ([.member decomposedAcute].map (JsonStep.composed acuteSupport)) := by
  have tokens : pointerTokens ("/" ++ decomposedAcute) = [decomposedAcute] := by
    rw [pointerTokens, accent_decoded]
    rfl
  have position : [.member decomposedAcute].map (JsonStep.composed acuteSupport) =
      [.member acute] := by
    rw [List.map_singleton, JsonStep.composed, acute_composed]
  rw [tokens, position, List.map_singleton, acute_composed]
  refine ⟨redactJsonPointers_ok.mpr ⟨⟨by decide, by simp, by simp [accent_decoded]⟩, composedCopy,
    decomposed_copy, ?_⟩, by decide, composed_unmasked⟩
  rw [List.map_singleton, tokens]
  have missed : keySelected decomposedAcute (some acute) = false := by decide
  simp only [maskPointers, maskPointer, composedCopy, maskMembers, missed, maskIf]
  rfl

end PointerExample

end MarketingAgents
