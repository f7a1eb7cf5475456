import Mathlib
import MarketingAgents.Library.JsonText

namespace MarketingAgents.Library.JsonText

/-! # The nesting of JSON texts

A scan that counts brackets outside strings bounds the nesting of a text before
it is parsed.  On every text that is parsed, the scan finds the nesting of its
value and nothing else.
-/

mutual

/-- How deeply arrays and objects are nested in a value. -/
def nesting : JsonValue → Nat
  | .scalar _ => 0
  | .array items => itemsNesting items + 1
  | .object members => membersNesting members + 1

def itemsNesting : List JsonValue → Nat
  | [] => 0
  | item :: rest => max (nesting item) (itemsNesting rest)

def membersNesting : List (String × JsonValue) → Nat
  | [] => 0
  | (_, item) :: rest => max (nesting item) (membersNesting rest)

end

/-- What is known of the brackets of a text that has been read in part. -/
structure BracketScan where
  depth : Nat
  inString : Bool
  escaped : Bool
deriving DecidableEq, Repr

/-- One more code unit.  Too many opening or closing brackets end the scan. -/
def bracketStep (limit : Nat) (scan : BracketScan) (code : Nat) : Option BracketScan :=
  if scan.inString then
    if scan.escaped then some { scan with escaped := false }
    else if code = 0x5C then some { scan with escaped := true }
    else if code = 0x22 then some { scan with inString := false }
    else some scan
  else if code = 0x22 then some { scan with inString := true }
  else if code = 0x5B ∨ code = 0x7B then
    if limit < scan.depth + 1 then none else some { scan with depth := scan.depth + 1 }
  else if code = 0x5D ∨ code = 0x7D then
    if scan.depth = 0 then none else some { scan with depth := scan.depth - 1 }
  else some scan

def bracketRun (limit : Nat) (scan : BracketScan) (codes : List Nat) : Option BracketScan :=
  codes.foldlM (bracketStep limit) scan

/-- The brackets are balanced and nested at most as deeply as the limit, and no string is left
open. -/
def bracketsBounded (limit : Nat) (codes : List Nat) : Bool :=
  match bracketRun limit { depth := 0, inString := false, escaped := false } codes with
  | some scan => scan.depth = 0 && !scan.inString
  | none => false

/-- Between two strings at some depth. -/
def outside (depth : Nat) : BracketScan := { depth, inString := false, escaped := false }

def inside (depth : Nat) : BracketScan := { depth, inString := true, escaped := false }

def codesOf (text : List Char) : List Nat := text.map Char.toNat

section

variable {limit depth fuel : Nat} {text rest : List Char} {first : Char}

@[simp] theorem bracketRun_cons (scan : BracketScan) (code : Nat) (codes : List Nat) :
    bracketRun limit scan (code :: codes) =
      (bracketStep limit scan code).bind fun next => bracketRun limit next codes := rfl

@[simp] theorem codesOf_cons : codesOf (first :: rest) = first.toNat :: codesOf rest := rfl

/-- The characters that the scan takes for quotes and brackets outside a string. -/
def marks : List Char := [quote, '[', '{', ']', '}']

theorem code_injective {left right : Char} : left.toNat = right.toNat ↔ left = right :=
  ⟨fun same => Char.ext (UInt32.toNat_inj.mp same), fun same => same ▸ rfl⟩

/-- Other characters do not matter outside a string. -/
theorem outside_plain (plain : first ∉ marks) :
    bracketStep limit (outside depth) first.toNat = some (outside depth) := by
  have different : ∀ mark ∈ marks, first.toNat ≠ mark.toNat := by
    intro mark member same
    exact plain (code_injective.mp same ▸ member)
  simp only [marks, List.forall_mem_cons] at different
  obtain ⟨quoted, bracket, brace, closing, closed, _⟩ := different
  have codes : quote.toNat = 0x22 ∧ '['.toNat = 0x5B ∧ '{'.toNat = 0x7B ∧ ']'.toNat = 0x5D ∧
      '}'.toNat = 0x7D := by
    decide
  rw [codes.1] at quoted
  rw [codes.2.1] at bracket
  rw [codes.2.2.1] at brace
  rw [codes.2.2.2.1] at closing
  rw [codes.2.2.2.2] at closed
  simp [bracketStep, outside, quoted, bracket, brace, closing, closed]

theorem outside_plain_append (consumed : List Char)
    (plain : ∀ character ∈ consumed, character ∉ marks) :
    bracketRun limit (outside depth) (codesOf (consumed ++ rest)) =
      bracketRun limit (outside depth) (codesOf rest) := by
  induction consumed with
  | nil => rfl
  | cons character consumed ih =>
      rw [List.forall_mem_cons] at plain
      rw [List.cons_append, codesOf_cons, bracketRun_cons, outside_plain plain.1]
      exact ih plain.2

/-- White space is passed over. -/
theorem outside_skipWhitespace :
    bracketRun limit (outside depth) (codesOf (skipWhitespace text)) =
      bracketRun limit (outside depth) (codesOf text) := by
  conv_rhs => rw [← List.takeWhile_append_dropWhile
    (p := fun character => decide (character ∈ [' ', '\t', '\n', '\r'])) (l := text)]
  refine (outside_plain_append _ fun character member => ?_).symm
  have blank := List.mem_takeWhile_imp member
  simp only [List.mem_cons, List.not_mem_nil, or_false, decide_eq_true_eq] at blank
  rcases blank with rfl | rfl | rfl | rfl <;> decide

theorem outside_quote :
    bracketRun limit (outside depth) (codesOf (quote :: rest)) =
      bracketRun limit (inside depth) (codesOf rest) := rfl

/-- An opening bracket goes one level deeper where the limit allows it. -/
theorem outside_open (opening : first ∈ ['[', '{']) :
    bracketRun limit (outside depth) (codesOf (first :: rest)) =
      if depth + 1 ≤ limit then bracketRun limit (outside (depth + 1)) (codesOf rest)
        else none := by
  have step : bracketStep limit (outside depth) first.toNat =
      if depth + 1 ≤ limit then some (outside (depth + 1)) else none := by
    have code : first.toNat = 0x5B ∨ first.toNat = 0x7B := by
      simp only [List.mem_cons, List.not_mem_nil, or_false] at opening
      rcases opening with rfl | rfl <;> decide
    have unquoted : first.toNat ≠ 0x22 := by omega
    by_cases enough : depth + 1 ≤ limit
    · simp [bracketStep, outside, unquoted, code, enough, Nat.not_lt.mpr enough]
    · simp [bracketStep, outside, unquoted, code, enough, Nat.lt_of_not_le enough]
  rw [codesOf_cons, bracketRun_cons, step]
  split <;> rfl

theorem outside_close (closing : first ∈ [']', '}']) :
    bracketRun limit (outside (depth + 1)) (codesOf (first :: rest)) =
      bracketRun limit (outside depth) (codesOf rest) := by
  simp only [List.mem_cons, List.not_mem_nil, or_false] at closing
  rcases closing with rfl | rfl <;> rfl

theorem outside_separator (separator : first ∈ [',', ':']) :
    bracketRun limit (outside depth) (codesOf (first :: rest)) =
      bracketRun limit (outside depth) (codesOf rest) := by
  refine outside_plain_append [first] (List.forall_mem_singleton.mpr ?_)
  simp only [List.mem_cons, List.not_mem_nil, or_false] at separator
  rcases separator with rfl | rfl <;> decide

theorem inside_quote :
    bracketRun limit (inside depth) (codesOf (quote :: rest)) =
      bracketRun limit (outside depth) (codesOf rest) := rfl

/-- Other characters do not matter in a string. -/
theorem inside_plain (unquoted : first ≠ quote) (unescaped : first ≠ backslash) :
    bracketRun limit (inside depth) (codesOf (first :: rest)) =
      bracketRun limit (inside depth) (codesOf rest) := by
  have codes : first.toNat ≠ 0x5C ∧ first.toNat ≠ 0x22 :=
    ⟨fun same => unescaped (code_injective.mp same), fun same => unquoted (code_injective.mp same)⟩
  simp [bracketStep, inside, codes.1, codes.2]

/-- An escaped character never closes its string. -/
theorem inside_escape :
    bracketRun limit (inside depth) (codesOf (backslash :: first :: rest)) =
      bracketRun limit (inside depth) (codesOf rest) := rfl

theorem hexValue?_plain {value : Nat} (read : hexValue? first = some value) :
    first ≠ quote ∧ first ≠ backslash := by
  constructor
  all_goals
    rintro rfl
    cases read

theorem inside_hex {value : Nat} (scanned : scanHex text = some (value, rest)) :
    bracketRun limit (inside depth) (codesOf text) =
      bracketRun limit (inside depth) (codesOf rest) := by
  unfold scanHex at scanned
  split at scanned
  case h_2 => cases scanned
  case h_1 first second third fourth more =>
    simp only [Option.bind_eq_bind, Option.bind_eq_some_iff, Option.some.injEq,
      Prod.mk.injEq] at scanned
    obtain ⟨_, high, _, upper, _, lower, _, low, _, rfl⟩ := scanned
    rw [inside_plain (hexValue?_plain high).1 (hexValue?_plain high).2,
      inside_plain (hexValue?_plain upper).1 (hexValue?_plain upper).2,
      inside_plain (hexValue?_plain lower).1 (hexValue?_plain lower).2,
      inside_plain (hexValue?_plain low).1 (hexValue?_plain low).2]

theorem inside_codePoint {character : Char}
    (scanned : scanCodePoint text = some (character, rest)) :
    bracketRun limit (inside depth) (codesOf text) =
      bracketRun limit (inside depth) (codesOf rest) := by
  simp only [scanCodePoint, Option.bind_eq_bind, Option.bind_eq_some_iff] at scanned
  obtain ⟨⟨unit, more⟩, read, scanned⟩ := scanned
  rw [inside_hex read]
  split at scanned
  case isTrue =>
    split at scanned
    case h_2 => cases scanned
    case h_1 _ mark others shape =>
      obtain rfl : more = mark :: 'u' :: others := shape
      simp only [Option.bind_eq_some_iff] at scanned
      obtain ⟨⟨trail, remaining⟩, second, scanned⟩ := scanned
      split at scanned
      case isFalse => cases scanned
      case isTrue paired =>
        obtain ⟨rfl, _⟩ := paired
        simp only [Option.some.injEq, Prod.mk.injEq] at scanned
        rw [inside_escape, inside_hex second, scanned.2]
  case isFalse =>
    split at scanned
    case isTrue => cases scanned
    case isFalse =>
      simp only [Option.some.injEq, Prod.mk.injEq] at scanned
      rw [scanned.2]

/-- A string is passed over up to its closing quote. -/
theorem inside_string {characters : List Char}
    (scanned : scanString fuel text = some (characters, rest)) :
    bracketRun limit (inside depth) (codesOf text) =
      bracketRun limit (outside depth) (codesOf rest) := by
  induction fuel generalizing text characters with
  | zero => cases text <;> cases scanned
  | succ fuel ih =>
      cases text with
      | nil => cases scanned
      | cons first text =>
          simp only [scanString] at scanned
          split at scanned
          case isTrue closing =>
            cases scanned
            rw [closing, inside_quote]
          case isFalse unquoted =>
            split at scanned
            case isTrue escape =>
              subst escape
              cases text with
              | nil => cases scanned
              | cons letter text =>
                  rw [inside_escape]
                  simp only [Option.bind_eq_bind] at scanned
                  split at scanned
                  case isTrue =>
                    simp only [Option.bind_eq_some_iff] at scanned
                    obtain ⟨⟨escaped, more⟩, read, ⟨others, remaining⟩, tail, same⟩ := scanned
                    cases same
                    rw [inside_codePoint read, ih tail]
                  case isFalse =>
                    split at scanned
                    case isTrue =>
                      simp only [Option.bind_eq_some_iff, Option.some.injEq,
                        exists_eq_left'] at scanned
                      obtain ⟨⟨others, remaining⟩, tail, same⟩ := scanned
                      cases same
                      exact ih tail
                    case isFalse =>
                      simp only [Option.bind_eq_some_iff, Option.map_eq_some_iff] at scanned
                      obtain ⟨_, ⟨escape, _, rfl⟩, ⟨others, remaining⟩, tail, same⟩ := scanned
                      cases same
                      exact ih tail
            case isFalse unescaped =>
              split at scanned
              case isTrue => cases scanned
              case isFalse =>
                simp only [Option.bind_eq_bind, Option.bind_eq_some_iff] at scanned
                obtain ⟨⟨others, remaining⟩, tail, same⟩ := scanned
                cases same
                rw [inside_plain unquoted unescaped, ih tail]

/-- The characters that numbers are written with. -/
def NumberCharacter (character : Char) : Prop :=
  isDigit character = true ∨ character ∈ ['-', '+', '.', 'e', 'E']

theorem NumberCharacter.plain (number : NumberCharacter first) : first ∉ marks := by
  intro member
  simp only [marks, List.mem_cons, List.not_mem_nil, or_false] at member
  rcases number with digit | mark
  · rcases member with rfl | rfl | rfl | rfl | rfl <;> exact absurd digit (by decide)
  · rcases member with rfl | rfl | rfl | rfl | rfl <;> exact absurd mark (by decide)

/-- A text is consumed up to its rest with characters of one kind. -/
def PassedBy (allowed : Char → Prop) (text rest : List Char) : Prop :=
  ∃ consumed, text = consumed ++ rest ∧ ∀ character ∈ consumed, allowed character

variable {allowed : Char → Prop}

theorem PassedBy.refl (text : List Char) : PassedBy allowed text text := ⟨[], rfl, by simp⟩

theorem PassedBy.trans (head : PassedBy allowed text middle) (tail : PassedBy allowed middle rest) :
    PassedBy allowed text rest := by
  obtain ⟨before, rfl, plain⟩ := head
  obtain ⟨after, rfl, others⟩ := tail
  refine ⟨before ++ after, by simp, fun character member => ?_⟩
  rcases List.mem_append.mp member with member | member
  · exact plain character member
  · exact others character member

theorem PassedBy.cons (kind : allowed first) (tail : PassedBy allowed text rest) :
    PassedBy allowed (first :: text) rest :=
  .trans ⟨[first], rfl, by simpa using kind⟩ tail

theorem PassedBy.mono {other : Char → Prop}
    (wider : ∀ character, allowed character → other character)
    (passed : PassedBy allowed text rest) : PassedBy other text rest := by
  obtain ⟨consumed, same, kind⟩ := passed
  exact ⟨consumed, same, fun character member => wider character (kind character member)⟩

theorem PassedBy.run (passed : PassedBy (· ∉ marks) text rest) :
    bracketRun limit (outside depth) (codesOf text) =
      bracketRun limit (outside depth) (codesOf rest) := by
  obtain ⟨consumed, rfl, plain⟩ := passed
  exact outside_plain_append consumed plain

theorem scanDigits_passed (text : List Char) : PassedBy NumberCharacter text (scanDigits text).2 :=
  ⟨text.takeWhile isDigit, List.takeWhile_append_dropWhile.symm,
    fun _ member => .inl (List.mem_takeWhile_imp member)⟩

theorem scanSign_passed (text : List Char) : PassedBy NumberCharacter text (scanSign text).2 := by
  unfold scanSign
  split
  · exact .cons (.inr (by decide)) (.refl _)
  · exact .refl _

theorem scanWhole_passed {whole : List Char} (scanned : scanWhole text = some (whole, rest)) :
    PassedBy NumberCharacter text rest := by
  cases text with
  | nil => cases scanned
  | cons first text =>
      simp only [scanWhole] at scanned
      split at scanned
      case isTrue zero =>
        cases scanned
        exact .cons (.inl (by rw [zero]; decide)) (.refl _)
      case isFalse =>
        split at scanned
        case isFalse => cases scanned
        case isTrue digit =>
          cases scanned
          exact .cons (.inl digit) (scanDigits_passed text)

theorem scanFraction_passed (text : List Char) :
    PassedBy NumberCharacter text (scanFraction text).2 := by
  cases text with
  | nil => exact .refl _
  | cons first text =>
      simp only [scanFraction]
      split
      case isTrue point => exact .cons (.inr (by rw [point.1]; decide)) (scanDigits_passed text)
      case isFalse => exact .refl _

theorem scanExponentSign_passed (text : List Char) :
    PassedBy NumberCharacter text (scanExponentSign text).2 := by
  cases text with
  | nil => exact .refl _
  | cons first text =>
      simp only [scanExponentSign]
      split
      case isTrue sign =>
        refine .cons ?_ (.refl _)
        simp only [List.mem_cons, List.not_mem_nil, or_false] at sign
        rcases sign with rfl | rfl <;> exact .inr (by decide)
      case isFalse => exact .refl _

theorem scanExponent_passed (text : List Char) :
    PassedBy NumberCharacter text (scanExponent text).2 := by
  cases text with
  | nil => exact .refl _
  | cons first text =>
      simp only [scanExponent]
      split
      case isTrue exponent =>
        refine .cons ?_ ((scanExponentSign_passed text).trans (scanDigits_passed _))
        have letter := exponent.1
        simp only [List.mem_cons, List.not_mem_nil, or_false] at letter
        rcases letter with rfl | rfl <;> exact .inr (by decide)
      case isFalse => exact .refl _

theorem scanNumber_passed {number : List Char} (scanned : scanNumber text = some (number, rest)) :
    PassedBy NumberCharacter text rest := by
  simp only [scanNumber, Option.bind_eq_bind, Option.bind_eq_some_iff, Option.some.injEq,
    Prod.mk.injEq] at scanned
  obtain ⟨⟨whole, remaining⟩, read, _, rfl⟩ := scanned
  exact (scanSign_passed text).trans <| (scanWhole_passed read).trans <|
    (scanFraction_passed remaining).trans (scanExponent_passed _)

theorem scanKeyword_passed {words : List (List Char × JsonScalar)} {scalar : JsonScalar}
    (plain : (words.all fun word => word.1.all (· ∉ marks)) = true)
    (scanned : scanKeyword words text = some (scalar, rest)) : PassedBy (· ∉ marks) text rest := by
  obtain ⟨word, member, found⟩ := List.exists_of_findSome?_eq_some scanned
  split at found
  case isFalse => cases found
  case isTrue starts =>
    cases found
    obtain ⟨more, rfl⟩ := List.isPrefixOf_iff_prefix.mp starts
    have apart := List.all_eq_true.mp plain word member
    exact ⟨word.1, by simp, fun character inside =>
      of_decide_eq_true (List.all_eq_true.mp apart character inside)⟩

theorem scanScalar_passed {scalar : JsonScalar} (scanned : scanScalar text = some (scalar, rest)) :
    PassedBy (· ∉ marks) text rest := by
  simp only [scanScalar, Option.orElse_eq_or, Option.or_eq_some_iff, Option.map_eq_some_iff,
    Prod.mk.injEq] at scanned
  rcases scanned with keyword | ⟨_, ⟨number, read, _, rfl⟩ | ⟨_, constant⟩⟩
  · exact scanKeyword_passed (by decide) keyword
  · exact (scanNumber_passed read).mono fun _ number => number.plain
  · exact scanKeyword_passed (by decide) constant

/-- The scan of a part of a text that nests so deeply: it either goes on behind the part or has
failed. -/
def ScansTo (limit start levels finish : Nat) (text rest : List Char) : Prop :=
  bracketRun limit (outside start) (codesOf text) =
    if start + levels ≤ limit then bracketRun limit (outside finish) (codesOf rest) else none

theorem ScansTo.of_passed (enough : depth ≤ limit) (passed : PassedBy (· ∉ marks) text rest) :
    ScansTo limit depth 0 depth text rest := by
  rw [ScansTo, if_pos (by omega)]
  exact passed.run

/-- White space in front of a part is none of it. -/
theorem scansTo_skipWhitespace {levels finish : Nat} :
    ScansTo limit depth levels finish (skipWhitespace text) rest ↔
      ScansTo limit depth levels finish text rest := by
  rw [ScansTo, ScansTo, outside_skipWhitespace]

/-- Two parts one behind the other nest as deeply as the deeper of them. -/
theorem ScansTo.trans {first second finish : Nat}
    (head : ScansTo limit depth first depth text middle)
    (tail : ScansTo limit depth second finish middle rest) :
    ScansTo limit depth (max first second) finish text rest := by
  rw [ScansTo, head]
  by_cases shallow : depth + first ≤ limit
  · rw [if_pos shallow, tail]
    by_cases enough : depth + second ≤ limit
    · rw [if_pos enough, if_pos (by omega)]
    · rw [if_neg enough, if_neg (by omega)]
  · rw [if_neg shallow, if_neg (by omega)]

theorem ScansTo.close (enough : depth + 1 ≤ limit) (closing : first ∈ [']', '}']) :
    ScansTo limit (depth + 1) 0 depth (first :: rest) rest := by
  rw [ScansTo, if_pos (by omega)]
  exact outside_close closing

theorem ScansTo.separate {levels finish : Nat} (separator : first ∈ [',', ':'])
    (tail : ScansTo limit depth levels finish text rest) :
      ScansTo limit depth levels finish (first :: text) rest := by
  rw [ScansTo, outside_separator separator]
  exact tail

/-- An opening bracket makes its contents one level deeper. -/
theorem ScansTo.open {levels : Nat} (opening : first ∈ ['[', '{'])
    (contents : depth + 1 ≤ limit → ScansTo limit (depth + 1) levels depth text rest) :
    ScansTo limit depth (levels + 1) depth (first :: text) rest := by
  rw [ScansTo, outside_open opening]
  by_cases enough : depth + 1 ≤ limit
  · rw [if_pos enough, contents enough]
    simp only [Nat.add_assoc, Nat.add_comm 1 levels]
  · rw [if_neg enough, if_neg (by omega)]

theorem ScansTo.string {characters : List Char} {levels finish : Nat}
    (scanned : scanString fuel text = some (characters, rest))
    (tail : ScansTo limit depth levels finish rest behind) :
    ScansTo limit depth levels finish (quote :: text) behind := by
  rw [ScansTo, outside_quote, inside_string scanned]
  exact tail

/-- Values, items and members are scanned to the level they started from. -/
structure ScansValues (limit fuel : Nat) : Prop where
  value {text rest : List Char} {read : JsonValue} {depth : Nat} : depth ≤ limit →
    scanValue fuel text = some (read, rest) → ScansTo limit depth (nesting read) depth text rest
  items {text rest : List Char} {read : List JsonValue} {depth : Nat} : depth + 1 ≤ limit →
    scanItems fuel text = some (read, rest) →
      ScansTo limit (depth + 1) (itemsNesting read) depth text rest
  members {text rest : List Char} {read : List (String × JsonValue)} {depth : Nat} :
    depth + 1 ≤ limit →
    scanMembers fuel text = some (read, rest) →
      ScansTo limit (depth + 1) (membersNesting read) depth text rest

theorem ScansValues.next_value (known : ScansValues limit fuel) {read : JsonValue}
    (enough : depth ≤ limit) (scanned : scanValue (fuel + 1) text = some (read, rest)) :
      ScansTo limit depth (nesting read) depth text rest := by
  cases text with
  | nil => cases scanned
  | cons first text =>
      simp only [scanValue] at scanned
      split at scanned
      case isTrue quoted =>
        simp only [Option.map_eq_some_iff, Prod.mk.injEq] at scanned
        obtain ⟨characters, inner, rfl, rfl⟩ := scanned
        rw [quoted]
        exact .string inner (.of_passed enough (.refl _))
      case isFalse =>
        split at scanned
        case isTrue brace =>
          rw [brace]
          split at scanned
          case h_1 closed skipped =>
            cases scanned
            refine .open (by decide) fun inner => scansTo_skipWhitespace.mp ?_
            rw [skipped]
            exact .close inner (by decide)
          case h_2 =>
            simp only [Option.map_eq_some_iff, Prod.mk.injEq] at scanned
            obtain ⟨members, inner, rfl, rfl⟩ := scanned
            exact .open (by decide) fun deeper =>
              scansTo_skipWhitespace.mp (known.members deeper inner)
        case isFalse =>
          split at scanned
          case isTrue bracket =>
            rw [bracket]
            split at scanned
            case h_1 closed skipped =>
              cases scanned
              refine .open (by decide) fun inner => scansTo_skipWhitespace.mp ?_
              rw [skipped]
              exact .close inner (by decide)
            case h_2 =>
              simp only [Option.map_eq_some_iff, Prod.mk.injEq] at scanned
              obtain ⟨items, inner, rfl, rfl⟩ := scanned
              exact .open (by decide) fun deeper =>
                scansTo_skipWhitespace.mp (known.items deeper inner)
          case isFalse =>
            simp only [Option.map_eq_some_iff, Prod.mk.injEq] at scanned
            obtain ⟨scalar, inner, rfl, rfl⟩ := scanned
            exact .of_passed enough (scanScalar_passed inner)

theorem ScansValues.next_items (known : ScansValues limit fuel) {read : List JsonValue}
    (enough : depth + 1 ≤ limit) (scanned : scanItems (fuel + 1) text = some (read, rest)) :
    ScansTo limit (depth + 1) (itemsNesting read) depth text rest := by
  simp only [scanItems, Option.bind_eq_bind, Option.bind_eq_some_iff] at scanned
  obtain ⟨⟨item, more⟩, first, scanned⟩ := scanned
  have head := known.value enough first
  split at scanned
  case h_1 closed skipped =>
    cases scanned
    refine head.trans (scansTo_skipWhitespace.mp ?_)
    rw [skipped]
    exact .close enough (by decide)
  case h_2 others skipped =>
    simp only [Option.bind_eq_some_iff] at scanned
    obtain ⟨⟨items, remaining⟩, tail, same⟩ := scanned
    cases same
    refine head.trans (scansTo_skipWhitespace.mp ?_)
    rw [skipped]
    exact .separate (by decide) (scansTo_skipWhitespace.mp (known.items enough tail))
  case h_3 => cases scanned

theorem ScansValues.next_members (known : ScansValues limit fuel) {read : List (String × JsonValue)}
    (enough : depth + 1 ≤ limit) (scanned : scanMembers (fuel + 1) text = some (read, rest)) :
    ScansTo limit (depth + 1) (membersNesting read) depth text rest := by
  cases text with
  | nil => cases scanned
  | cons first text =>
      simp only [scanMembers] at scanned
      split at scanned
      case isFalse => cases scanned
      case isTrue quoted =>
        rw [quoted]
        simp only [Option.bind_eq_bind, Option.bind_eq_some_iff] at scanned
        obtain ⟨⟨name, named⟩, inner, scanned⟩ := scanned
        refine .string inner ?_
        split at scanned
        case h_2 => cases scanned
        case h_1 valued skipped =>
          simp only [Option.bind_eq_some_iff] at scanned
          obtain ⟨⟨item, more⟩, valueRead, scanned⟩ := scanned
          refine scansTo_skipWhitespace.mp ?_
          rw [skipped]
          refine .separate (by decide) (scansTo_skipWhitespace.mp ?_)
          have head := known.value enough valueRead
          split at scanned
          case h_1 closed skipped =>
            cases scanned
            refine head.trans (scansTo_skipWhitespace.mp ?_)
            rw [skipped]
            exact .close enough (by decide)
          case h_2 others skipped =>
            simp only [Option.bind_eq_some_iff] at scanned
            obtain ⟨⟨members, remaining⟩, tail, same⟩ := scanned
            cases same
            refine head.trans (scansTo_skipWhitespace.mp ?_)
            rw [skipped]
            exact .separate (by decide) (scansTo_skipWhitespace.mp (known.members enough tail))
          case h_3 => cases scanned

theorem scansValues (limit fuel : Nat) : ScansValues limit fuel := by
  induction fuel with
  | zero =>
      refine ⟨fun _ scanned => ?_, fun _ scanned => ?_, fun _ scanned => ?_⟩
      · simp [scanValue] at scanned
      · simp [scanItems] at scanned
      · simp [scanMembers] at scanned
  | succ fuel known => exact ⟨known.next_value, known.next_items, known.next_members⟩

/-- The brackets of a text that is parsed are bounded exactly where the nesting of its value is. -/
theorem bracketsBounded_iff (parsed : parse text = some value) :
    bracketsBounded limit (codesOf text) = true ↔ nesting value ≤ limit := by
  simp only [parse, Option.bind_eq_bind, Option.bind_eq_some_iff] at parsed
  obtain ⟨⟨read, rest⟩, scanned, ended⟩ := parsed
  split at ended
  case isFalse => cases ended
  case isTrue blank =>
    cases ended
    have scan := scansTo_skipWhitespace.mp ((scansValues limit _).value (Nat.zero_le limit) scanned)
    have tail : bracketRun limit (outside 0) (codesOf rest) = some (outside 0) := by
      rw [← outside_skipWhitespace, blank]
      rfl
    rw [ScansTo, tail, Nat.zero_add] at scan
    change (match bracketRun limit (outside 0) (codesOf text) with
      | some scan => decide (scan.depth = 0) && !scan.inString
      | none => false) = true ↔ _
    rw [scan]
    by_cases enough : nesting read ≤ limit
    · simp [enough, outside]
    · simp [enough]

/-- The bytes of a character that is not one byte are no quotes, brackets or backslashes. -/
theorem utf8EncodeChar_codes (character : Char) :
    (character.toNat < 128 ∧ (String.utf8EncodeChar character).map UInt8.toNat =
      [character.toNat]) ∨
      (128 ≤ character.toNat ∧ (String.utf8EncodeChar character) ≠ [] ∧
        ∀ byte ∈ String.utf8EncodeChar character, 128 ≤ byte.toNat) := by
  have code : character.val.toNat = character.toNat := rfl
  unfold String.utf8EncodeChar
  simp only [code]
  by_cases plain : character.toNat ≤ 0x7f
  · left
    simp only [plain, if_true, List.map_cons, List.map_nil, UInt8.toNat_ofNat']
    exact ⟨by omega, by congr 1; omega⟩
  · right
    refine ⟨by omega, ?_, ?_⟩
    · simp only [plain, if_false]
      split <;> [skip; split] <;> simp
    · intro byte member
      simp only [plain, if_false] at member
      split at member <;> [skip; split at member] <;>
        simp only [List.mem_cons, List.not_mem_nil, or_false] at member <;>
        rcases member with rfl | rfl | rfl | rfl <;> simp only [UInt8.toNat_ofNat'] <;> omega

/-- A code beyond the basic characters at most ends an escape. -/
theorem bracketStep_high {code : Nat} (high : 128 ≤ code) (scan : BracketScan) :
    bracketStep limit scan code = some { scan with escaped := scan.escaped && !scan.inString } := by
  have different : code ≠ 0x5C ∧ code ≠ 0x22 ∧ code ≠ 0x5B ∧ code ≠ 0x7B ∧ code ≠ 0x5D ∧
    code ≠ 0x7D := by omega
  obtain ⟨depth, inString, escaped⟩ := scan
  cases inString <;> cases escaped <;> simp [bracketStep, different]

theorem bracketRun_high {codes : List Nat} (high : ∀ code ∈ codes, 128 ≤ code)
    (nonempty : codes ≠ []) (scan : BracketScan) :
    bracketRun limit scan codes = some { scan with escaped := scan.escaped && !scan.inString } := by
  induction codes generalizing scan with
  | nil => exact absurd rfl nonempty
  | cons code codes ih =>
      rw [List.forall_mem_cons] at high
      rw [bracketRun_cons, bracketStep_high high.1, Option.bind_some]
      cases codes with
      | nil => rfl
      | cons next codes =>
          rw [ih high.2 (by simp)]
          simp

theorem bracketRun_append (scan : BracketScan) (codes others : List Nat) :
    bracketRun limit scan (codes ++ others) =
      (bracketRun limit scan codes).bind fun next => bracketRun limit next others :=
  List.foldlM_append

/-- The bytes of a text are scanned like its characters. -/
theorem bracketRun_utf8 (scan : BracketScan) :
    bracketRun limit scan ((text.flatMap String.utf8EncodeChar).map UInt8.toNat) =
      bracketRun limit scan (codesOf text) := by
  induction text generalizing scan with
  | nil => rfl
  | cons first text ih =>
      have step : bracketRun limit scan ((String.utf8EncodeChar first).map UInt8.toNat) =
          bracketStep limit scan first.toNat := by
        rcases utf8EncodeChar_codes first with ⟨_, codes⟩ | ⟨high, nonempty, bytes⟩
        · rw [codes, bracketRun_cons]
          cases bracketStep limit scan first.toNat <;> rfl
        · rw [bracketRun_high (by simpa using bytes) (by simp [nonempty]), bracketStep_high high]
      rw [List.flatMap_cons, List.map_append, bracketRun_append, step, codesOf_cons,
        bracketRun_cons]
      simp only [ih]

theorem bracketsBounded_utf8 :
    bracketsBounded limit ((text.flatMap String.utf8EncodeChar).map UInt8.toNat) =
      bracketsBounded limit (codesOf text) := by
  rw [bracketsBounded, bracketsBounded, bracketRun_utf8]

end

end MarketingAgents.Library.JsonText
