import Mathlib
import MarketingAgents.Library.Json

namespace MarketingAgents.Library.JsonText

/-! # JSON texts

The compact text of a JSON value and a scanner for JSON texts.  The scanner
reads back every value from its text, so two values with one text are equal.
-/

def quote : Char := Char.ofNat 34

def backslash : Char := Char.ofNat 92

/-- The short escapes: the control character and the letter that stands for it. -/
def shortEscapes : List (Char × Char) :=
  [(quote, quote), (backslash, backslash), (Char.ofNat 8, 'b'), (Char.ofNat 12, 'f'),
    (Char.ofNat 10, 'n'), (Char.ofNat 13, 'r'), (Char.ofNat 9, 't')]

def escapeChar (character : Char) : List Char :=
  match shortEscapes.lookup character with
  | some letter => [backslash, letter]
  | none =>
      if character.toNat < 32 then
        [backslash, 'u', '0', '0', Nat.digitChar (character.toNat / 16),
          Nat.digitChar (character.toNat % 16)]
      else [character]

def printString (text : String) : List Char :=
  quote :: (text.toList.flatMap escapeChar ++ [quote])

def printScalar : JsonScalar → List Char
  | .null => "null".toList
  | .bool true => "true".toList
  | .bool false => "false".toList
  | .number text => text.toList
  | .string text => printString text

mutual

/-- The text of a value without any whitespace. -/
def printValue : JsonValue → List Char
  | .scalar scalar => printScalar scalar
  | .array items => '[' :: printItems items
  | .object members => '{' :: printMembers members

/-- The items of an array up to its closing bracket. -/
def printItems : List JsonValue → List Char
  | [] => [']']
  | [item] => printValue item ++ [']']
  | item :: rest => printValue item ++ ',' :: printItems rest

def printMembers : List (String × JsonValue) → List Char
  | [] => ['}']
  | [(name, item)] => printString name ++ ':' :: printValue item ++ ['}']
  | (name, item) :: rest => printString name ++ ':' :: printValue item ++ ',' :: printMembers rest

end

def hexValue? (character : Char) : Option Nat :=
  if '0' ≤ character ∧ character ≤ '9' then some (character.toNat - '0'.toNat)
  else if 'a' ≤ character ∧ character ≤ 'f' then some (character.toNat - 'a'.toNat + 10)
  else if 'A' ≤ character ∧ character ≤ 'F' then some (character.toNat - 'A'.toNat + 10)
  else none

/-- Four hexadecimal digits and what follows them. -/
def scanHex : List Char → Option (Nat × List Char)
  | first :: second :: third :: fourth :: rest => do
      let high ← hexValue? first
      let upper ← hexValue? second
      let lower ← hexValue? third
      let low ← hexValue? fourth
      some (high * 4096 + upper * 256 + lower * 16 + low, rest)
  | _ => none

/-- A numeric escape, after its letter; two of them make up a character beyond the basic plane. -/
def scanCodePoint (text : List Char) : Option (Char × List Char) := do
  let (unit, rest) ← scanHex text
  if 0xd800 ≤ unit ∧ unit ≤ 0xdbff then
    match rest with
    | mark :: 'u' :: more => do
        let (trail, rest) ← scanHex more
        if mark = backslash ∧ 0xdc00 ≤ trail ∧ trail ≤ 0xdfff then
          some (Char.ofNat (0x10000 + (unit - 0xd800) * 0x400 + (trail - 0xdc00)), rest)
        else none
    | _ => none
  else if 0xdc00 ≤ unit ∧ unit ≤ 0xdfff then none
  else some (Char.ofNat unit, rest)

/-- The characters of a string up to its closing quote, after the opening one. -/
def scanString : Nat → List Char → Option (List Char × List Char)
  | 0, _ | _, [] => none
  | fuel + 1, character :: rest =>
      if character = quote then some ([], rest)
      else if character = backslash then
        match rest with
        | [] => none
        | letter :: rest => do
            let (escaped, rest) ←
              if letter = 'u' then scanCodePoint rest
              else if letter = '/' then some ('/', rest)
              else (shortEscapes.find? fun escape => escape.2 = letter).map fun escape =>
                (escape.1, rest)
            let (others, rest) ← scanString fuel rest
            some (escaped :: others, rest)
      else if character.toNat < 32 then none
      else do
        let (others, rest) ← scanString fuel rest
        some (character :: others, rest)

def isDigit (character : Char) : Bool := '0' ≤ character && character ≤ '9'

def scanDigits (text : List Char) : List Char × List Char :=
  (text.takeWhile isDigit, text.dropWhile isDigit)

def scanSign : List Char → List Char × List Char
  | '-' :: rest => (['-'], rest)
  | text => ([], text)

/-- Digits without a leading zero. -/
def scanWhole : List Char → Option (List Char × List Char)
  | [] => none
  | first :: rest =>
      if first = '0' then some (['0'], rest)
      else if isDigit first then some (first :: (scanDigits rest).1, (scanDigits rest).2)
      else none

def scanFraction : List Char → List Char × List Char
  | [] => ([], [])
  | first :: rest =>
      if first = '.' ∧ (scanDigits rest).1 ≠ [] then
        (first :: (scanDigits rest).1, (scanDigits rest).2)
      else ([], first :: rest)

def scanExponentSign : List Char → List Char × List Char
  | [] => ([], [])
  | first :: rest => if first ∈ ['+', '-'] then ([first], rest) else ([], first :: rest)

def scanExponent : List Char → List Char × List Char
  | [] => ([], [])
  | first :: rest =>
      if first ∈ ['e', 'E'] ∧ (scanDigits (scanExponentSign rest).2).1 ≠ [] then
        (first :: (scanExponentSign rest).1 ++ (scanDigits (scanExponentSign rest).2).1,
          (scanDigits (scanExponentSign rest).2).2)
      else ([], first :: rest)

/-- The longest number at the start of a text. -/
def scanNumber (text : List Char) : Option (List Char × List Char) := do
  let signed := scanSign text
  let (whole, rest) ← scanWhole signed.2
  let fraction := scanFraction rest
  let exponent := scanExponent fraction.2
  some (signed.1 ++ whole ++ fraction.1 ++ exponent.1, exponent.2)

def skipWhitespace (text : List Char) : List Char :=
  text.dropWhile fun character => character ∈ [' ', '\t', '\n', '\r']

/-- The literals that stand for a scalar of their own. -/
def keywords : List (List Char × JsonScalar) :=
  [("null".toList, .null), ("true".toList, .bool true), ("false".toList, .bool false)]

/-- What follows a keyword at the start of a text. -/
def scanKeyword (words : List (List Char × JsonScalar)) (text : List Char) :
    Option (JsonScalar × List Char) :=
  words.findSome? fun word =>
    if word.1.isPrefixOf text then some (word.2, text.drop word.1.length) else none

/-- Constants that are read, though never written, as numbers. -/
def constants : List (List Char × JsonScalar) :=
  ["NaN", "Infinity", "-Infinity"].map fun name => (name.toList, .number name)

def scanScalar (text : List Char) : Option (JsonScalar × List Char) :=
  (scanKeyword keywords text).orElse fun _ =>
    ((scanNumber text).map fun number => (.number (String.ofList number.1), number.2)).orElse
        fun _ =>
      scanKeyword constants text

mutual

/-- The value at the start of a text and what follows it. -/
def scanValue : Nat → List Char → Option (JsonValue × List Char)
  | 0, _ | _, [] => none
  | fuel + 1, first :: rest =>
      if first = quote then
        (scanString fuel rest).map fun text => (.scalar (.string (String.ofList text.1)), text.2)
      else if first = '{' then
        match skipWhitespace rest with
        | '}' :: rest => some (.object [], rest)
        | rest => (scanMembers fuel rest).map fun members => (.object members.1, members.2)
      else if first = '[' then
        match skipWhitespace rest with
        | ']' :: rest => some (.array [], rest)
        | rest => (scanItems fuel rest).map fun items => (.array items.1, items.2)
      else (scanScalar (first :: rest)).map fun scalar => (.scalar scalar.1, scalar.2)

/-- At least one item and the closing bracket. -/
def scanItems : Nat → List Char → Option (List JsonValue × List Char)
  | 0, _ => none
  | fuel + 1, text => do
      let (item, rest) ← scanValue fuel text
      match skipWhitespace rest with
      | ']' :: rest => some ([item], rest)
      | ',' :: rest => do
          let (items, rest) ← scanItems fuel (skipWhitespace rest)
          some (item :: items, rest)
      | _ => none

/-- At least one member and the closing brace. -/
def scanMembers : Nat → List Char → Option (List (String × JsonValue) × List Char)
  | 0, _ | _, [] => none
  | fuel + 1, first :: rest =>
      if first = quote then do
        let (name, rest) ← scanString fuel rest
        match skipWhitespace rest with
        | ':' :: rest => do
            let (item, rest) ← scanValue fuel (skipWhitespace rest)
            match skipWhitespace rest with
            | '}' :: rest => some ([(String.ofList name, item)], rest)
            | ',' :: rest => do
                let (members, rest) ← scanMembers fuel (skipWhitespace rest)
                some ((String.ofList name, item) :: members, rest)
            | _ => none
        | _ => none
      else none

end

/-- The value that a whole text stands for. -/
def parse (text : List Char) : Option JsonValue := do
  let (value, rest) ← scanValue (text.length + 1) (skipWhitespace text)
  if skipWhitespace rest = [] then some value else none

/-- The whole text is one number. -/
def IsNumber (text : List Char) : Prop := scanNumber text = some (text, [])

instance (text : List Char) : Decidable (IsNumber text) := inferInstanceAs (Decidable (_ = _))

/-- What follows a value in a text: nothing, or a separator or a closing bracket. -/
def Delimited (rest : List Char) : Prop := ∀ character ∈ rest.head?, character ∈ [',', ']', '}']

variable {text rest : List Char}

theorem Delimited.cons {first : Char} (rest : List Char) (separator : first ∈ [',', ']', '}']) :
    Delimited (first :: rest) := by
  intro character head
  obtain rfl := Option.some.inj head
  exact separator

/-- No digit, point, exponent or sign goes on with a number. -/
def Ends (rest : List Char) : Prop := ∀ character ∈ rest.head?,
  isDigit character = false ∧ character ≠ '.' ∧ character ∉ ['e', 'E'] ∧ character ∉ ['+', '-']

theorem Ends.stops {first : Char} (ends : Ends (first :: rest)) :
    isDigit first = false ∧ first ≠ '.' ∧ first ∉ ['e', 'E'] ∧ first ∉ ['+', '-'] := ends first rfl

/-- Neither digits nor signs nor exponents follow a number. -/
theorem Delimited.ends (delimited : Delimited rest) : Ends rest := by
  intro character head
  have separator := delimited character head
  simp only [List.mem_cons, List.not_mem_nil, or_false] at separator
  rcases separator with rfl | rfl | rfl <;> decide

theorem scanDigits_append (ends : Ends rest) :
    scanDigits (text ++ rest) = ((scanDigits text).1, (scanDigits text).2 ++ rest) := by
  induction text with
  | nil =>
      cases rest with
      | nil => rfl
      | cons first rest => simp [scanDigits, ends.stops.1]
  | cons first text ih =>
      simp only [scanDigits, Prod.mk.injEq] at ih ⊢
      cases digit : isDigit first <;> simp [digit, ih]

theorem scanWhole_append {whole remaining : List Char} (ends : Ends rest)
    (scanned : scanWhole text = some (whole, remaining)) :
    scanWhole (text ++ rest) = some (whole, remaining ++ rest) := by
  cases text with
  | nil => cases scanned
  | cons first text =>
      simp only [scanWhole, List.cons_append] at scanned ⊢
      split at scanned
      case isTrue zero =>
        cases scanned
        simp [zero]
      case isFalse nonzero =>
        split at scanned
        case isFalse => cases scanned
        case isTrue digit =>
          cases scanned
          simp [nonzero, digit, scanDigits_append ends]

theorem scanFraction_append (ends : Ends rest) :
    scanFraction (text ++ rest) = ((scanFraction text).1, (scanFraction text).2 ++ rest) := by
  cases text with
  | nil =>
      cases rest with
      | nil => rfl
      | cons first rest => simp [scanFraction, ends.stops.2.1]
  | cons first text =>
      simp only [List.cons_append, scanFraction, scanDigits_append ends]
      split <;> rfl

theorem scanExponentSign_append (ends : Ends rest) :
    scanExponentSign (text ++ rest) = ((scanExponentSign text).1,
      (scanExponentSign text).2 ++ rest) := by
  cases text with
  | nil =>
      cases rest with
      | nil => rfl
      | cons first rest => simp only [List.nil_append, scanExponentSign, ends.stops.2.2.2, if_false]
  | cons first text =>
      simp only [List.cons_append, scanExponentSign]
      split <;> rfl

theorem scanExponent_append (ends : Ends rest) :
    scanExponent (text ++ rest) = ((scanExponent text).1, (scanExponent text).2 ++ rest) := by
  cases text with
  | nil =>
      cases rest with
      | nil => rfl
      | cons first rest =>
          simp only [List.nil_append, scanExponent, ends.stops.2.2.1, false_and, if_false]
  | cons first text =>
      simp only [List.cons_append, scanExponent, scanExponentSign_append ends,
        scanDigits_append ends]
      split <;> rfl

theorem scanSign_append (nonempty : text ≠ []) :
    scanSign (text ++ rest) = ((scanSign text).1, (scanSign text).2 ++ rest) := by
  cases text with
  | nil => exact absurd rfl nonempty
  | cons first text =>
      by_cases minus : first = '-'
      · simp [scanSign, minus]
      · simp [scanSign, minus]

/-- A number is read to its end in front of anything that does not go on with it. -/
theorem scanNumber_ends (number : IsNumber text) (ends : Ends rest) :
    scanNumber (text ++ rest) = some (text, rest) := by
  have nonempty : text ≠ [] := by
    rintro rfl
    cases number
  simp only [IsNumber, scanNumber, Option.bind_eq_bind, Option.bind_eq_some_iff, Option.some.injEq,
    Prod.mk.injEq] at number ⊢
  obtain ⟨⟨whole, remaining⟩, scanned, same, ended⟩ := number
  rw [scanSign_append nonempty]
  refine ⟨_, scanWhole_append ends scanned, ?_⟩
  simp only [scanFraction_append ends, scanExponent_append ends]
  exact ⟨same, by simp [ended]⟩

/-- A number is read to its end in front of anything that may follow it. -/
theorem scanNumber_append (number : IsNumber text) (delimited : Delimited rest) :
    scanNumber (text ++ rest) = some (text, rest) := scanNumber_ends number delimited.ends

/-- A number starts with a digit or a minus sign. -/
theorem IsNumber.head (number : IsNumber text) :
    ∃ first more, text = first :: more ∧ (first = '-' ∨ isDigit first = true) := by
  cases text with
  | nil => cases number
  | cons first more =>
      refine ⟨first, more, rfl, ?_⟩
      by_contra other
      obtain ⟨positive, letter⟩ := not_or.mp other
      have zero : first ≠ '0' := by
        rintro rfl
        exact letter (by decide)
      simp [IsNumber, scanNumber, scanSign, positive, scanWhole, zero, letter] at number

theorem hexValue?_digitChar : ∀ digit, digit < 16 →
    hexValue? (Nat.digitChar digit) = some digit := by decide

/-- A control character is read back from its numeric escape. -/
theorem scanCodePoint_control {character : Char} (control : character.toNat < 32) :
    scanCodePoint ('0' :: '0' :: Nat.digitChar (character.toNat / 16) ::
      Nat.digitChar (character.toNat % 16) :: rest) = some (character, rest) := by
  have zero : hexValue? '0' = some 0 := by decide
  have lower := hexValue?_digitChar (character.toNat / 16) (by omega)
  have low := hexValue?_digitChar (character.toNat % 16) (by omega)
  have whole : character.toNat / 16 * 16 + character.toNat % 16 = character.toNat := by omega
  have basic : ¬(0xd800 ≤ character.toNat ∧ character.toNat ≤ 0xdbff) := by omega
  have paired : ¬(0xdc00 ≤ character.toNat ∧ character.toNat ≤ 0xdfff) := by omega
  simp [scanCodePoint, scanHex, zero, lower, low, whole, basic, paired]

theorem shortEscapes_read {character letter : Char}
    (short : shortEscapes.lookup character = some letter) :
    letter ≠ 'u' ∧ letter ≠ '/' ∧ shortEscapes.find? (fun escape => escape.2 = letter) =
      some (character, letter) := by
  have member : (character, letter) ∈ shortEscapes := by
    obtain ⟨before, after, split, _⟩ := List.lookup_eq_some_iff.mp short
    simp [split]
  revert member
  have all : ∀ escape ∈ shortEscapes, escape.2 ≠ 'u' ∧ escape.2 ≠ '/' ∧
      shortEscapes.find? (fun other => other.2 = escape.2) = some escape := by decide
  exact all (character, letter)

/-- One written character is read back as it was. -/
theorem scanString_escapeChar {fuel : Nat} {character : Char} :
    scanString (fuel + 1) (escapeChar character ++ rest) =
      (scanString fuel rest).map fun others => (character :: others.1, others.2) := by
  unfold escapeChar
  cases short : shortEscapes.lookup character with
  | some letter =>
      obtain ⟨numeric, solidus, read⟩ := shortEscapes_read short
      have different : backslash ≠ quote := by decide
      simp only [List.cons_append, List.nil_append, scanString, different, if_false, if_true,
        numeric, solidus, read, Option.map_some, Option.bind_eq_bind, Option.bind_some]
      cases scanString fuel rest <;> rfl
  | none =>
      by_cases control : character.toNat < 32
      · have different : backslash ≠ quote := by decide
        simp only [control, if_true, List.cons_append, List.nil_append, scanString,
          different, if_false,
          if_true, scanCodePoint_control control, Option.bind_eq_bind, Option.bind_some]
        cases scanString fuel rest <;> rfl
      · have plain : character ≠ quote ∧ character ≠ backslash := by
          constructor
          all_goals
            rintro rfl
            exact absurd short (by decide)
        simp only [control, if_false, List.cons_append, List.nil_append, scanString,
          plain.1, plain.2]
        cases scanString fuel rest <;> rfl

theorem escapeChar_length (character : Char) : 1 ≤ (escapeChar character).length := by
  unfold escapeChar
  split
  · simp
  · split <;> simp

/-- A string is read back from its text. -/
theorem scanString_print {fuel : Nat} (enough : (text.flatMap escapeChar).length + 1 ≤ fuel) :
    scanString fuel (text.flatMap escapeChar ++ quote :: rest) = some (text, rest) := by
  induction text generalizing fuel with
  | nil =>
      obtain ⟨fuel, rfl⟩ : ∃ less, fuel = less + 1 := ⟨fuel - 1, by simp at enough; omega⟩
      simp [scanString]
  | cons character text ih =>
      have long := escapeChar_length character
      simp only [List.flatMap_cons, List.length_append] at enough
      obtain ⟨fuel, rfl⟩ : ∃ less, fuel = less + 1 := ⟨fuel - 1, by omega⟩
      rw [List.flatMap_cons, List.append_assoc, scanString_escapeChar, ih (by omega)]
      rfl

mutual

/-- Every number in a value is written as one. -/
def NumbersRead : JsonValue → Prop
  | .scalar (.number text) => IsNumber text.toList
  | .scalar _ => True
  | .array items => ItemsRead items
  | .object members => MembersRead members

def ItemsRead : List JsonValue → Prop
  | [] => True
  | item :: rest => NumbersRead item ∧ ItemsRead rest

def MembersRead : List (String × JsonValue) → Prop
  | [] => True
  | (_, item) :: rest => NumbersRead item ∧ MembersRead rest

end

theorem itemsRead_iff : ItemsRead items ↔ ∀ item ∈ items, NumbersRead item := by
  induction items with
  | nil => simp [ItemsRead]
  | cons item rest ih => simp [ItemsRead, ih]

theorem membersRead_iff :
    MembersRead members ↔ ∀ member ∈ members, NumbersRead member.2 := by
  induction members with
  | nil => simp [MembersRead]
  | cons member rest ih => simp [MembersRead, ih]

/-- The first characters that no value has. -/
def startsValue (first : Char) : Prop := first ∉ [' ', '\t', '\n', '\r', ']', '}', ',', ':']

instance (first : Char) : Decidable (startsValue first) :=
  inferInstanceAs (Decidable (first ∉ [' ', '\t', '\n', '\r', ']', '}', ',', ':']))

theorem isDigit_startsValue {first : Char} (digit : isDigit first = true) :
    startsValue first ∧ first ≠ quote ∧ first ≠ '{' ∧ first ≠ '[' ∧ first ∉ ['n', 't', 'f'] := by
  simp only [startsValue, List.mem_cons, List.not_mem_nil, or_false, not_or]
  refine ⟨⟨?_, ?_, ?_, ?_, ?_, ?_, ?_, ?_⟩, ?_, ?_, ?_, ?_, ?_, ?_⟩
  all_goals
    rintro rfl
    revert digit
    decide

theorem skipWhitespace_cons {first : Char} (visible : first ∉ [' ', '\t', '\n', '\r']) :
    skipWhitespace (first :: rest) = first :: rest := by
  simp only [skipWhitespace, List.dropWhile_cons, visible, decide_false,
    Bool.false_eq_true, if_false]

theorem skipWhitespace_starts {first : Char} (starts : startsValue first) :
    skipWhitespace (first :: rest) = first :: rest := by
  refine skipWhitespace_cons fun blank => starts ?_
  simp only [List.mem_cons, List.not_mem_nil, or_false] at blank ⊢
  rcases blank with rfl | rfl | rfl | rfl <;> decide

/-- A scalar other than a string is read in front of anything that may follow it. -/
theorem scanScalar_print (delimited : Delimited rest)
    (read : NumbersRead (.scalar scalar)) (plain : ∀ text, scalar ≠ .string text) :
    scanScalar (printScalar scalar ++ rest) = some (scalar, rest) ∧
      ∃ first more, printScalar scalar = first :: more ∧ startsValue first ∧ first ≠ quote ∧
        first ≠ '{' ∧ first ≠ '[' := by
  cases scalar with
  | null =>
      refine ⟨?_, 'n', "ull".toList, rfl, by simp [startsValue], by decide, by decide, by decide⟩
      simp [printScalar, scanScalar, scanKeyword, keywords]
  | bool value =>
      cases value with
      | true =>
          refine ⟨?_, 't', "rue".toList, rfl, by simp [startsValue], by decide,
            by decide, by decide⟩
          simp [printScalar, scanScalar, scanKeyword, keywords]
      | false =>
          refine ⟨?_, 'f', "alse".toList, rfl, by simp [startsValue], by decide,
            by decide, by decide⟩
          simp [printScalar, scanScalar, scanKeyword, keywords]
  | string text => exact absurd rfl (plain text)
  | number text =>
      have number : IsNumber text.toList := by simpa only [NumbersRead] using read
      obtain ⟨first, more, split, head⟩ := number.head
      have starts : startsValue first ∧ first ≠ quote ∧ first ≠ '{' ∧ first ≠ '[' ∧
          first ∉ ['n', 't', 'f'] := by
        rcases head with rfl | digit
        · decide
        · exact isDigit_startsValue digit
      obtain ⟨visible, unquoted, brace, bracket, letter⟩ := starts
      have unworded : scanKeyword keywords (text.toList ++ rest) = none := by
        simp only [List.mem_cons, List.not_mem_nil, or_false, not_or] at letter
        simp [scanKeyword, keywords, split, Ne.symm letter.1, Ne.symm letter.2.1,
          Ne.symm letter.2.2]
      refine ⟨?_, first, more, split, visible, unquoted, brace, bracket⟩
      simp [printScalar, scanScalar, unworded, scanNumber_append number delimited]

theorem printValue_head (read : NumbersRead value) :
    ∃ first more, printValue value = first :: more ∧ startsValue first := by
  cases value with
  | array items => exact ⟨'[', printItems items, rfl, by simp [startsValue]⟩
  | object members => exact ⟨'{', printMembers members, rfl, by simp [startsValue]⟩
  | scalar scalar =>
      by_cases textual : ∃ text, scalar = .string text
      · obtain ⟨text, rfl⟩ := textual
        exact ⟨quote, _, rfl, by simp [startsValue, quote]⟩
      · have plain : ∀ text, scalar ≠ .string text := fun text same => textual ⟨text, same⟩
        obtain ⟨_, first, more, split, visible, _⟩ :=
          scanScalar_print (show Delimited [] by simp [Delimited]) read plain
        exact ⟨first, more, split, visible⟩

theorem printItems_head (item : JsonValue) (others : List JsonValue) (read : NumbersRead item) :
    ∃ first more, printItems (item :: others) = first :: more ∧ startsValue first := by
  obtain ⟨first, more, split, starts⟩ := printValue_head read
  cases others with
  | nil => exact ⟨first, more ++ [']'], by simp [printItems, split], starts⟩
  | cons next others =>
      exact ⟨first, more ++ ',' :: printItems (next :: others), by simp [printItems, split], starts⟩

theorem printMembers_head (member : String × JsonValue) (others : List (String × JsonValue)) :
    ∃ more, printMembers (member :: others) = quote :: more := by
  obtain ⟨name, item⟩ := member
  cases others with
  | nil => exact ⟨_, rfl⟩
  | cons => exact ⟨_, rfl⟩

theorem skipWhitespace_close : skipWhitespace (']' :: rest) = ']' :: rest ∧
    skipWhitespace ('}' :: rest) = '}' :: rest ∧
    skipWhitespace (',' :: rest) = ',' :: rest ∧ skipWhitespace (':' :: rest) = ':' :: rest ∧
    skipWhitespace (quote :: rest) = quote :: rest :=
  ⟨skipWhitespace_cons (by decide), skipWhitespace_cons (by decide),
    skipWhitespace_cons (by decide),
    skipWhitespace_cons (by decide), skipWhitespace_cons (by decide)⟩

theorem skipWhitespace_value (rest : List Char) (read : NumbersRead value) :
    skipWhitespace (printValue value ++ rest) = printValue value ++ rest := by
  obtain ⟨first, more, split, starts⟩ := printValue_head read
  rw [split, List.cons_append, skipWhitespace_starts starts]

mutual

/-- A value is read back from its text, whatever follows it. -/
theorem scanValue_print : ∀ (value : JsonValue) (fuel : Nat) (rest : List Char), NumbersRead value →
    (printValue value).length ≤ fuel → Delimited rest →
      scanValue fuel (printValue value ++ rest) = some (value, rest)
  | value, 0, rest, read, enough, _ => by
      obtain ⟨first, more, split, _⟩ := printValue_head read
      simp [split] at enough
  | .scalar scalar, fuel + 1, rest, read, enough, delimited => by
      by_cases textual : ∃ text, scalar = .string text
      · obtain ⟨text, rfl⟩ := textual
        have body : (text.toList.flatMap escapeChar).length + 1 ≤ fuel := by
          simpa [printValue, printScalar, printString] using enough
        simp [printValue, printScalar, printString, scanValue, scanString_print body]
      · have plain : ∀ text, scalar ≠ .string text := fun text same => textual ⟨text, same⟩
        obtain ⟨scanned, first, more, split, _, unquoted, brace, bracket⟩ :=
          scanScalar_print delimited read plain
        simp only [printValue, split, List.cons_append] at scanned ⊢
        simp [scanValue, unquoted, brace, bracket, scanned]
  | .array [], fuel + 1, rest, _, _, _ => by
      simp [printValue, printItems, scanValue, skipWhitespace_close, show '[' ≠ quote by decide]
  | .array (item :: items), fuel + 1, rest, read, enough, delimited => by
      simp only [NumbersRead, ItemsRead] at read
      obtain ⟨first, more, split, starts⟩ := printItems_head item items read.1
      have body : (printItems (item :: items)).length ≤ fuel := by
        simpa [printValue] using enough
      have scanned := scanItems_print (item :: items) fuel rest
        (by simpa only [ItemsRead] using read) (by simp) body
      have unclosed : first ≠ ']' := by
        rintro rfl
        exact starts (by decide)
      rw [split, List.cons_append] at scanned
      simp only [printValue, split, List.cons_append]
      simp [scanValue, show '[' ≠ quote by decide, skipWhitespace_starts starts, unclosed, scanned]
  | .object [], fuel + 1, rest, _, _, _ => by
      simp [printValue, printMembers, scanValue, skipWhitespace_close, show '{' ≠ quote by decide]
  | .object (member :: members), fuel + 1, rest, read, enough, delimited => by
      simp only [NumbersRead] at read
      obtain ⟨more, split⟩ := printMembers_head member members
      have body : (printMembers (member :: members)).length ≤ fuel := by
        simpa [printValue] using enough
      have scanned := scanMembers_print (member :: members) fuel rest read (by simp) body
      rw [split, List.cons_append] at scanned
      simp only [printValue, split, List.cons_append]
      simp [scanValue, show '{' ≠ quote by decide, skipWhitespace_close,
        show quote ≠ '}' by decide, scanned]

theorem scanItems_print : ∀ (items : List JsonValue) (fuel : Nat)
    (rest : List Char), ItemsRead items → items ≠ [] →
    (printItems items).length ≤ fuel → scanItems fuel (printItems items ++ rest) =
      some (items, rest)
  | [], _, _, _, nonempty, _ => absurd rfl nonempty
  | item :: items, 0, _, read, _, enough => by
      simp only [ItemsRead] at read
      obtain ⟨first, more, split, _⟩ := printItems_head item items read.1
      simp [split] at enough
  | [item], fuel + 1, rest, read, _, enough => by
      simp only [ItemsRead] at read
      have body : (printValue item).length ≤ fuel := by simpa [printItems] using enough
      have scanned := scanValue_print item fuel (']' :: rest) read.1 body (.cons rest (by decide))
      simp [printItems, scanItems, scanned, skipWhitespace_close]
  | item :: next :: items, fuel + 1, rest, read, _, enough => by
      simp only [ItemsRead] at read
      obtain ⟨first, more, split, starts⟩ := printItems_head next items read.2.1
      have printed : printItems (item :: next :: items) =
        printValue item ++ ',' :: printItems (next :: items) := rfl
      have size : (printValue item).length ≤ fuel ∧ (printItems (next :: items)).length ≤ fuel := by
        simp only [printed, List.length_append, List.length_cons] at enough
        omega
      have scanned := scanValue_print item fuel
        (',' :: (printItems (next :: items) ++ rest)) read.1 size.1 (.cons _ (by decide))
      have others := scanItems_print (next :: items) fuel rest
        (by simpa only [ItemsRead] using read.2) (by simp) size.2
      have visible : skipWhitespace (printItems (next :: items) ++ rest) =
          printItems (next :: items) ++ rest := by
        rw [split, List.cons_append, skipWhitespace_starts starts]
      rw [printed, List.append_assoc, List.cons_append, scanItems, scanned]
      simp [skipWhitespace_close, visible, others]

theorem scanMembers_print : ∀ (members : List (String × JsonValue)) (fuel : Nat) (rest : List Char),
    MembersRead members → members ≠ [] → (printMembers members).length ≤ fuel →
    scanMembers fuel (printMembers members ++ rest) = some (members, rest)
  | [], _, _, _, nonempty, _ => absurd rfl nonempty
  | member :: members, 0, _, _, _, enough => by
      obtain ⟨more, split⟩ := printMembers_head member members
      simp [split] at enough
  | [(name, item)], fuel + 1, rest, read, _, enough => by
      simp only [MembersRead] at read
      have size : (name.toList.flatMap escapeChar).length + 1 ≤ fuel ∧
          (printValue item).length ≤ fuel := by
        simp only [printMembers, printString, List.length_append, List.length_cons,
          List.length_nil] at enough
        omega
      have scanned := scanValue_print item fuel ('}' :: rest) read.1 size.2 (.cons rest (by decide))
      simp [printMembers, printString, scanMembers, scanString_print size.1, skipWhitespace_close,
        skipWhitespace_value _ read.1, scanned]
  | (name, item) :: next :: members, fuel + 1, rest, read, _, enough => by
      simp only [MembersRead] at read
      obtain ⟨more, split⟩ := printMembers_head next members
      have printed : printMembers ((name, item) :: next :: members) =
          printString name ++ ':' :: printValue item ++ ',' :: printMembers (next :: members) := rfl
      have size : (name.toList.flatMap escapeChar).length + 1 ≤ fuel ∧
        (printValue item).length ≤ fuel ∧
          (printMembers (next :: members)).length ≤ fuel := by
        simp only [printed, printString, List.length_append, List.length_cons,
          List.length_nil] at enough
        omega
      have scanned := scanValue_print item fuel (',' :: (printMembers (next :: members) ++ rest))
        read.1 size.2.1 (.cons _ (by decide))
      have others := scanMembers_print (next :: members) fuel rest
        (by simpa only [MembersRead] using read.2) (by simp) size.2.2
      have visible : skipWhitespace (printMembers (next :: members) ++ rest) =
          printMembers (next :: members) ++ rest := by
        rw [split, List.cons_append]
        exact skipWhitespace_close.2.2.2.2
      simp [printed, printString, scanMembers, scanString_print size.1, skipWhitespace_close,
        skipWhitespace_value _ read.1, scanned, visible, others]

end

/-- Every value is parsed back from its text. -/
theorem parse_print (read : NumbersRead value) : parse (printValue value) = some value := by
  have scanned := scanValue_print value ((printValue value).length + 1) [] read (Nat.le_succ _)
    (by simp [Delimited])
  have visible := skipWhitespace_value [] read
  simp only [List.append_nil] at scanned visible
  have ended : skipWhitespace [] = [] := rfl
  simp [parse, visible, scanned, ended]

/-- Two values with one text are one value. -/
theorem printValue_injective (leftRead : NumbersRead left) (rightRead : NumbersRead right)
    (same : printValue left = printValue right) : left = right := by
  have parsed := parse_print leftRead
  rw [same, parse_print rightRead] at parsed
  exact (Option.some.inj parsed).symm

end MarketingAgents.Library.JsonText
