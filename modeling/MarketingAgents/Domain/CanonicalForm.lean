import MarketingAgents.Domain.CanonicalJson
import MarketingAgents.Library.RelatedLists

namespace MarketingAgents

open Library
open Library.JsonText

/-! # The canonical form

Equality of values as the language compares them, the effect of composing all
strings, and that canonical texts agree exactly where composed values do.
-/

section

variable {φ : Type} (text : TextSupport) (numbers : NumberSupport φ)

mutual

/-- Compose every string and every key, and leave everything else as it is. -/
def PythonValue.nfcAll : PythonValue φ → PythonValue φ
  | .str value => .str (text.nfc value)
  | .mapping members => .mapping (nfcMembers members)
  | .sequence items => .sequence (nfcItems items)
  | .null => .null
  | .bool value => .bool value
  | .int value => .int value
  | .float value => .float value
  | .other typeName => .other typeName

def nfcItems : List (PythonValue φ) → List (PythonValue φ)
  | [] => []
  | item :: rest => item.nfcAll :: nfcItems rest

def nfcMembers : List (Option String × PythonValue φ) → List (Option String × PythonValue φ)
  | [] => []
  | (key, item) :: rest => (key.map text.nfc, item.nfcAll) :: nfcMembers rest

end

mutual

/-- Values of one type with one content; the order of a mapping does not matter. -/
def PythonValue.Same : PythonValue φ → PythonValue φ → Prop
  | .null, .null => True
  | .bool left, .bool right => left = right
  | .int left, .int right => left = right
  | .float left, .float right => left = right
  | .str left, .str right => left = right
  | .mapping left, .mapping right => left.length = right.length ∧ SameMembers left right
  | .sequence left, .sequence right => SameItems left right
  | .other left, .other right => left = right
  | _, _ => False

def SameItems : List (PythonValue φ) → List (PythonValue φ) → Prop
  | [], [] => True
  | left :: lefts, right :: rights => left.Same right ∧ SameItems lefts rights
  | _, _ => False

/-- Every member on the left is one on the right. -/
def SameMembers : List (Option String × PythonValue φ) → List (Option String × PythonValue φ) → Prop
  | [], _ => True
  | (key, item) :: rest, others =>
      (∃ other, (key, other) ∈ others ∧ item.Same other) ∧ SameMembers rest others

end

/-- Somewhere in a value two distinct keys of one mapping have one composed form. -/
inductive PythonValue.Collides : PythonValue φ → Prop where
  | keys {members : List (Option String × PythonValue φ)} {first second : String}
      {left right : PythonValue φ}
      (one : (some first, left) ∈ members) (two : (some second, right) ∈ members)
      (distinct : first ≠ second)
      (composed : text.nfc first = text.nfc second) : Collides (.mapping members)
  | member {members : List (Option String × PythonValue φ)} {key : Option String}
      {item : PythonValue φ}
      (inside : (key, item) ∈ members) (collides : Collides item) : Collides (.mapping members)
  | item {items : List (PythonValue φ)} {item : PythonValue φ} (inside : item ∈ items)
      (collides : Collides item) : Collides (.sequence items)

mutual

/-- A value as normalization leaves it. -/
def PythonValue.Settled : PythonValue φ → Prop
  | .str value => text.nfc value = value
  | .mapping members => (members.map Prod.fst).Nodup ∧ MembersSettled members
  | .sequence items => ItemsSettled items
  | .float value => numbers.finite value = true
  | .other _ => False
  | .null | .bool _ | .int _ => True

def ItemsSettled : List (PythonValue φ) → Prop
  | [] => True
  | item :: rest => item.Settled ∧ ItemsSettled rest

def MembersSettled : List (Option String × PythonValue φ) → Prop
  | [] => True
  | (key, item) :: rest =>
    (key.isSome ∧ key.map text.nfc = key) ∧ item.Settled ∧ MembersSettled rest

end

end

section

variable {φ : Type} {text : TextSupport} {numbers : NumberSupport φ}

mutual

theorem normalize_settled : ∀ {value normalized : PythonValue φ},
    value.normalize text numbers = .ok normalized → normalized = value.nfcAll text ∧
      normalized.Settled text numbers
  | .null, _, accepted | .bool _, _, accepted | .int _, _, accepted => by
      cases accepted
      exact ⟨rfl, trivial⟩
  | .float value, normalized, accepted => by
      simp only [PythonValue.normalize] at accepted
      split at accepted
      case isTrue finite =>
        cases accepted
        exact ⟨rfl, finite⟩
      case isFalse => cases accepted
  | .str value, _, accepted => by
      cases accepted
      exact ⟨rfl, text.nfc_idempotent value⟩
  | .mapping members, normalized, accepted => by
      simp only [PythonValue.normalize, bind_ok, require_ok, pure_ok] at accepted
      obtain ⟨_, named, others, accepted, _, distinct, rfl⟩ := accepted
      obtain ⟨same, settled⟩ := normalizeMembers_settled accepted named
      exact ⟨congrArg PythonValue.mapping same, distinct, settled⟩
  | .sequence items, normalized, accepted => by
      simp only [PythonValue.normalize, bind_ok, pure_ok] at accepted
      obtain ⟨others, accepted, rfl⟩ := accepted
      obtain ⟨same, settled⟩ := normalizeItems_settled accepted
      exact ⟨congrArg PythonValue.sequence same, settled⟩
  | .other _, _, accepted => by cases accepted

theorem normalizeItems_settled : ∀ {items normalized : List (PythonValue φ)},
    normalizeItems text numbers items = .ok normalized → normalized = nfcItems text items ∧
      ItemsSettled text numbers normalized
  | [], _, accepted => by
      cases accepted
      exact ⟨rfl, trivial⟩
  | item :: rest, _, accepted => by
      simp only [normalizeItems, bind_ok, pure_ok] at accepted
      obtain ⟨first, head, others, tail, rfl⟩ := accepted
      obtain ⟨rfl, settled⟩ := normalize_settled head
      obtain ⟨rfl, remaining⟩ := normalizeItems_settled tail
      exact ⟨rfl, settled, remaining⟩

theorem normalizeMembers_settled : ∀ {members normalized : List (Option String × PythonValue φ)},
    normalizeMembers text numbers members = .ok normalized → members.all (·.1.isSome) = true →
    normalized = nfcMembers text members ∧ MembersSettled text numbers normalized
  | [], _, accepted, _ => by
      cases accepted
      exact ⟨rfl, trivial⟩
  | (key, item) :: rest, _, accepted, named => by
      simp only [normalizeMembers, bind_ok, pure_ok] at accepted
      simp only [List.all_cons, Bool.and_eq_true] at named
      obtain ⟨first, head, others, tail, rfl⟩ := accepted
      obtain ⟨rfl, settled⟩ := normalize_settled head
      obtain ⟨rfl, remaining⟩ := normalizeMembers_settled tail named.2
      refine ⟨rfl, ⟨by simpa using named.1, ?_⟩, settled, remaining⟩
      cases key <;> simp [text.nfc_idempotent]

end

mutual

theorem settled_normalize : ∀ {value : PythonValue φ}, value.Settled text numbers →
    value.normalize text numbers = .ok value
  | .null, _ | .bool _, _ | .int _, _ => rfl
  | .float value, settled => if_pos settled
  | .str value, settled => congrArg (fun composed => Except.ok (PythonValue.str composed)) settled
  | .mapping members, settled => by
      simp only [PythonValue.Settled] at settled
      obtain ⟨same, named⟩ := settled_normalizeMembers settled.2
      simp only [PythonValue.normalize, bind_ok, require_ok, pure_ok]
      exact ⟨(), named, members, same, (), settled.1, rfl⟩
  | .sequence items, settled => by
      simp only [PythonValue.Settled] at settled
      simp only [PythonValue.normalize, bind_ok, pure_ok]
      exact ⟨items, settled_normalizeItems settled, rfl⟩
  | .other _, settled => settled.elim

theorem settled_normalizeItems : ∀ {items : List (PythonValue φ)}, ItemsSettled text numbers items →
    normalizeItems text numbers items = .ok items
  | [], _ => rfl
  | item :: rest, settled => by
      simp only [ItemsSettled] at settled
      simp only [normalizeItems, bind_ok, pure_ok]
      exact ⟨item, settled_normalize settled.1, rest, settled_normalizeItems settled.2, rfl⟩

theorem settled_normalizeMembers : ∀ {members : List (Option String × PythonValue φ)},
    MembersSettled text numbers members →
    normalizeMembers text numbers members = .ok members ∧ members.all (·.1.isSome) = true
  | [], _ => ⟨rfl, rfl⟩
  | (key, item) :: rest, settled => by
      simp only [MembersSettled] at settled
      obtain ⟨⟨named, composed⟩, one, others⟩ := settled
      obtain ⟨same, all⟩ := settled_normalizeMembers others
      refine ⟨?_, by simp [named, all]⟩
      simp only [normalizeMembers, bind_ok, pure_ok]
      exact ⟨item, settled_normalize one, rest, same, by rw [composed]⟩

end

theorem nfcMembers_eq {members : List (Option String × PythonValue φ)} :
    nfcMembers text members = members.map fun member =>
      (member.1.map text.nfc, member.2.nfcAll text) := by
  induction members with
  | nil => rfl
  | cons member rest ih => simp only [nfcMembers, List.map_cons, ih]

theorem normalizeItems_each {item : PythonValue φ}
    (accepted : normalizeItems text numbers items = .ok normalized) (inside : item ∈ items) :
    ∃ first, item.normalize text numbers = .ok first := by
  induction items generalizing normalized with
  | nil => cases inside
  | cons head rest ih =>
      simp only [normalizeItems, bind_ok, pure_ok] at accepted
      obtain ⟨first, one, others, tail, _⟩ := accepted
      rcases List.mem_cons.mp inside with rfl | later
      · exact ⟨first, one⟩
      · exact ih tail later

theorem normalizeMembers_each {key : Option String}
    {item : PythonValue φ} (accepted : normalizeMembers text numbers members = .ok normalized)
    (inside : (key, item) ∈ members) : ∃ first, item.normalize text numbers = .ok first := by
  induction members generalizing normalized with
  | nil => cases inside
  | cons head rest ih =>
      obtain ⟨other, value⟩ := head
      simp only [normalizeMembers, bind_ok, pure_ok] at accepted
      obtain ⟨first, one, others, tail, _⟩ := accepted
      rcases List.mem_cons.mp inside with same | later
      · cases same
        exact ⟨first, one⟩
      · exact ih tail later

theorem collides_refused {value : PythonValue φ} (collides : value.Collides text) :
    ∀ normalized, value.normalize text numbers ≠ .ok normalized := by
  induction collides with
  | keys one two distinct composed =>
      rename_i members first second left right
      intro normalized accepted
      simp only [PythonValue.normalize, bind_ok, require_ok, pure_ok] at accepted
      obtain ⟨_, named, others, accepted, _, unique, _⟩ := accepted
      obtain ⟨rfl, _⟩ := normalizeMembers_settled accepted named
      rw [nfcMembers_eq, List.map_map] at unique
      have same := List.inj_on_of_nodup_map unique one two (by simp [composed])
      exact distinct (Option.some.inj (congrArg Prod.fst same))
  | member inside _ ih =>
      intro normalized accepted
      simp only [PythonValue.normalize, bind_ok, require_ok, pure_ok] at accepted
      obtain ⟨_, _, others, accepted, _⟩ := accepted
      obtain ⟨first, one⟩ := normalizeMembers_each accepted inside
      exact ih first one
  | item inside _ ih =>
      intro normalized accepted
      simp only [PythonValue.normalize, bind_ok, pure_ok] at accepted
      obtain ⟨others, accepted, _⟩ := accepted
      obtain ⟨first, one⟩ := normalizeItems_each accepted inside
      exact ih first one

theorem isDigit_toDigits {value : Nat} {character : Char}
    (member : character ∈ Nat.toDigits 10 value) :
    JsonText.isDigit character = true := by
  have digit := Nat.isDigit_of_mem_toDigits (by decide) (by decide) member
  simpa [Char.isDigit, JsonText.isDigit, Char.le_def] using digit

theorem toDigits_head {value : Nat} : ∀ first ∈ (Nat.toDigits 10 value).head?, first = '0' →
    value = 0 := by
  induction value using Nat.strong_induction_on with
  | _ value ih =>
      intro first head zero
      by_cases small : value < 10
      · rw [Nat.toDigits_of_lt_base small] at head
        obtain rfl := Option.some.inj head
        exact Nat.digitChar_eq_zero.mp zero
      · rw [Nat.toDigits_of_base_le (by decide) (by omega)] at head
        have nonempty := @Nat.toDigits_ne_nil (value / 10) 10
        rw [List.head?_append_of_ne_nil _ nonempty] at head
        have := ih (value / 10) (by omega) first head zero
        omega

theorem scanDigits_all {digits : List Char}
    (all : ∀ digit ∈ digits, JsonText.isDigit digit = true) :
    scanDigits digits = (digits, []) := by
  induction digits with
  | nil => rfl
  | cons first rest ih =>
      obtain ⟨head, tail⟩ := List.forall_mem_cons.mp all
      have later := ih tail
      simp only [scanDigits, Prod.mk.injEq] at later ⊢
      simp [head, later]

theorem scanWhole_toDigits (value : Nat) :
    scanWhole (Nat.toDigits 10 value) = some (Nat.toDigits 10 value, []) := by
  have all : ∀ digit ∈ Nat.toDigits 10 value, JsonText.isDigit digit = true :=
    fun _ => isDigit_toDigits
  cases digits : Nat.toDigits 10 value with
  | nil => exact absurd digits Nat.toDigits_ne_nil
  | cons first rest =>
      rw [digits] at all
      by_cases zero : first = '0'
      · have none : value = 0 := toDigits_head first (by simp [digits]) zero
        subst none
        simp only [Nat.toDigits_zero, List.cons.injEq] at digits
        simp [scanWhole, ← digits.1, ← digits.2]
      · obtain ⟨head, tail⟩ := List.forall_mem_cons.mp all
        simp [scanWhole, zero, head, scanDigits_all tail]

theorem toDigits_unsigned (value : Nat) :
    scanSign (Nat.toDigits 10 value) = ([], Nat.toDigits 10 value) := by
  cases digits : Nat.toDigits 10 value with
  | nil => rfl
  | cons first rest =>
      have digit : JsonText.isDigit first = true := isDigit_toDigits (digits ▸ List.mem_cons_self)
      have unsigned : first ≠ '-' := by
        rintro rfl
        revert digit
        decide
      simp [scanSign, unsigned]

theorem scanSign_intText (value : Int) :
    scanSign (intText value) = (if value < 0 then ['-'] else [], Nat.toDigits 10 value.natAbs) := by
  by_cases negative : value < 0
  · simp [intText, negative, scanSign]
  · simp [intText, negative, toDigits_unsigned]

theorem intText_number (value : Int) : IsNumber (intText value) := by
  have text : intText value = (if value < 0 then ['-'] else []) ++
      Nat.toDigits 10 value.natAbs := by
    by_cases negative : value < 0 <;> simp [intText, negative]
  simp only [IsNumber, scanNumber, scanSign_intText, scanWhole_toDigits, Option.bind_eq_bind,
    Option.bind_some]
  simp [text, scanFraction, scanExponent]

theorem intText_integral (value : Int) : integral (String.ofList (intText value)) = true := by
  have digits : ∀ character ∈ Nat.toDigits 10 value.natAbs, JsonText.isDigit character = true ∨
    character = '-' :=
    fun _ member => .inl (isDigit_toDigits member)
  by_cases negative : value < 0
  · simpa [integral, intText, negative] using digits
  · simpa [integral, intText, negative] using digits

theorem readInt_intText {value : Int}
    (short : (Nat.toDigits 10 value.natAbs).length ≤ numbers.maxStrDigits) :
    readInt numbers (String.ofList (intText value)) = some value := by
  simp only [readInt, String.toList_ofList, scanSign_intText, short, if_true,
    Nat.ofDigitChars_ten_toDigits]
  by_cases negative : value < 0
  · simp only [negative, if_true, List.cons_ne_nil, if_false]
    rw [Int.ofNat_natAbs_of_nonpos (Int.le_of_lt negative), Int.neg_neg]
  · simp only [negative, if_false, if_true]
    rw [Int.natAbs_of_nonneg (Int.not_lt.mp negative)]

theorem repr_fraction (finite : numbers.finite value = true) :
    integral (numbers.repr value) = false := by
  obtain ⟨mark, member, fractional⟩ := numbers.repr_fractional value finite
  refine List.all_eq_false.mpr ⟨mark, member, ?_⟩
  simp only [List.mem_cons, List.not_mem_nil, or_false] at fractional
  rcases fractional with rfl | rfl | rfl <;> decide

theorem documentMembers_names (written : documentMembers numbers members = .ok documents) :
    members.map Prod.fst = documents.map fun entry => some entry.1 := by
  induction members generalizing documents with
  | nil =>
      cases written
      rfl
  | cons member rest ih =>
      obtain ⟨key, item⟩ := member
      cases key with
      | none => cases written
      | some name =>
          simp only [documentMembers, bind_ok, pure_ok] at written
          obtain ⟨first, _, others, tail, rfl⟩ := written
          simp [ih tail]

theorem mem_documentMembers {name : String} {document : JsonValue}
    (written : documentMembers numbers members = .ok documents) :
    (name, document) ∈ documents ↔ ∃ item, (some name, item) ∈ members ∧
      item.document numbers = .ok document := by
  induction members generalizing documents with
  | nil =>
      cases written
      simp
  | cons member rest ih =>
      obtain ⟨key, value⟩ := member
      cases key with
      | none => cases written
      | some label =>
          simp only [documentMembers, bind_ok, pure_ok] at written
          obtain ⟨first, head, others, tail, rfl⟩ := written
          simp only [List.mem_cons, ih tail, Prod.mk.injEq, Option.some.injEq]
          constructor
          · rintro (⟨rfl, rfl⟩ | ⟨item, inside, one⟩)
            · exact ⟨value, .inl ⟨rfl, rfl⟩, head⟩
            · exact ⟨item, .inr inside, one⟩
          · rintro ⟨item, ⟨rfl, rfl⟩ | inside, one⟩
            · exact .inl ⟨rfl, Except.ok.inj (one.symm.trans head)⟩
            · exact .inr ⟨item, inside, one⟩

theorem mem_written {key : Option String} {item : PythonValue φ}
    (written : documentMembers numbers members = .ok documents)
    (inside : (key, item) ∈ members) : ∃ document, item.document numbers = .ok document := by
  induction members generalizing documents with
  | nil => cases inside
  | cons member rest ih =>
      obtain ⟨label, value⟩ := member
      cases label with
      | none => cases written
      | some name =>
          simp only [documentMembers, bind_ok, pure_ok] at written
          obtain ⟨first, head, others, tail, _⟩ := written
          rcases List.mem_cons.mp inside with same | later
          · cases same
            exact ⟨first, head⟩
          · exact ih tail later

theorem membersSettled_mem {key : Option String}
    {item : PythonValue φ} (settled : MembersSettled text numbers members)
    (inside : (key, item) ∈ members) :
    item.Settled text numbers := by
  induction members with
  | nil => cases inside
  | cons member rest ih =>
      obtain ⟨label, value⟩ := member
      simp only [MembersSettled] at settled
      rcases List.mem_cons.mp inside with same | later
      · cases same
        exact settled.2.1
      · exact ih settled.2.2 later

theorem documentMembers_length (written : documentMembers numbers members = .ok documents) :
      members.length = documents.length := by
  simpa using congrArg List.length (documentMembers_names written)

theorem documentMembers_nodup (written : documentMembers numbers members = .ok documents)
    (distinct : (members.map Prod.fst).Nodup) :
    (documents.map Prod.fst).Nodup := by
  rw [documentMembers_names written] at distinct
  refine List.Nodup.of_map some ?_
  simpa [List.map_map, Function.comp_def] using distinct

instance : Std.Total NamedBefore := ⟨fun left right => le_total left.1 right.1⟩

instance : IsTrans (String × JsonValue) NamedBefore := ⟨fun _ _ _ => le_trans⟩

theorem sorted_unique {left right : List (String × JsonValue)}
    (distinct : (left.map Prod.fst).Nodup)
    (perm : left.Perm right) : left.insertionSort NamedBefore = right.insertionSort NamedBefore :=
  insertionSort_eq_of_perm (fun _ inLeft _ other before after =>
    List.inj_on_of_nodup_map distinct inLeft other (le_antisymm before after)) perm

theorem sorted_eq_iff {left : List (String × JsonValue)} (right : List (String × JsonValue))
    (leftDistinct : (left.map Prod.fst).Nodup) :
    left.insertionSort NamedBefore = right.insertionSort NamedBefore ↔
      left.length = right.length ∧ ∀ entry ∈ left, entry ∈ right := by
  have leftPerm := List.perm_insertionSort NamedBefore left
  have rightPerm := List.perm_insertionSort NamedBefore right
  constructor
  · intro same
    have perm : left.Perm right := leftPerm.symm.trans (same ▸ rightPerm)
    exact ⟨perm.length_eq, fun entry member => perm.subset member⟩
  · rintro ⟨length, inside⟩
    have perm : left.Perm right :=
      (List.subperm_of_subset (leftDistinct.of_map Prod.fst) inside).perm_of_length_le length.ge
    exact sorted_unique leftDistinct perm

/-- How each value is written. -/
def PythonValue.WrittenAs (numbers : NumberSupport φ) (document : JsonValue) : PythonValue φ → Prop
  | .null => document = .scalar .null
  | .bool value => document = .scalar (.bool value)
  | .int value => document = .scalar (.number (String.ofList (intText value))) ∧
      (Nat.toDigits 10 value.natAbs).length ≤ numbers.maxStrDigits
  | .float value => document = .scalar (.number (numbers.repr value)) ∧ numbers.finite value = true
  | .str value => document = .scalar (.string value)
  | .mapping members => ∃ documents, document = .object (documents.insertionSort NamedBefore) ∧
      documentMembers numbers members = .ok documents
  | .sequence items =>
    ∃ documents, document = .array documents ∧ documentItems numbers items = .ok documents
  | .other _ => False

theorem document_written {value : PythonValue φ} :
    value.document numbers = .ok document ↔ value.WrittenAs numbers document := by
  cases value with
  | null | bool | str => simp [PythonValue.document, PythonValue.WrittenAs, eq_comm]
  | int | float =>
      simp only [PythonValue.document, PythonValue.WrittenAs, bind_ok, require_ok, pure_ok]
      constructor
      · rintro ⟨_, holds, rfl⟩
        exact ⟨rfl, holds⟩
      · rintro ⟨rfl, holds⟩
        exact ⟨(), holds, rfl⟩
  | mapping | sequence =>
      simp only [PythonValue.document, PythonValue.WrittenAs, bind_ok, pure_ok]
      constructor
      · rintro ⟨documents, written, rfl⟩
        exact ⟨documents, rfl, written⟩
      · rintro ⟨documents, rfl, written⟩
        exact ⟨documents, written, rfl⟩
  | other => simp [PythonValue.document, PythonValue.WrittenAs, reject_ok]

theorem intText_injective {left right : Int}
    (same : String.ofList (intText left) = String.ofList (intText right)) :
    left = right := by
  have texts : intText left = intText right := String.ofList_injective same
  have scanned := congrArg scanSign texts
  simp only [scanSign_intText, Prod.mk.injEq] at scanned
  have digits := congrArg (fun digits => Nat.ofDigitChars 10 digits 0) scanned.2
  simp only [Nat.ofDigitChars_ten_toDigits] at digits
  have signs := scanned.1
  split at signs <;> split at signs
  all_goals first | omega | cases signs

theorem repr_injective (leftFinite : numbers.finite left = true)
    (rightFinite : numbers.finite right = true) (same : numbers.repr left = numbers.repr right) :
      left = right := by
  rw [← numbers.parse_repr left leftFinite, same, numbers.parse_repr right rightFinite]

theorem intText_ne_repr {value : Int} (finite : numbers.finite float = true) :
    String.ofList (intText value) ≠ numbers.repr float := by
  intro same
  have whole := intText_integral value
  rw [same, repr_fraction finite] at whole
  cases whole

theorem same_scalar {left right : PythonValue φ}
    (leftWritten : left.WrittenAs numbers (.scalar first))
    (rightWritten : right.WrittenAs numbers second) :
    left.Same right ↔ .scalar first = second := by
  cases left with
  | mapping => simp [PythonValue.WrittenAs] at leftWritten
  | sequence => simp [PythonValue.WrittenAs] at leftWritten
  | other => exact leftWritten.elim
  | null =>
      cases right <;> simp only [PythonValue.WrittenAs] at leftWritten rightWritten <;>
        simp only [PythonValue.Same] <;> grind
  | bool =>
      cases right <;> simp only [PythonValue.WrittenAs] at leftWritten rightWritten <;>
        simp only [PythonValue.Same] <;> grind
  | str =>
      cases right <;> simp only [PythonValue.WrittenAs] at leftWritten rightWritten <;>
        simp only [PythonValue.Same] <;> grind
  | int value =>
      cases right <;> simp only [PythonValue.WrittenAs] at leftWritten rightWritten <;>
        simp only [PythonValue.Same] <;> grind [intText_injective, intText_ne_repr]
  | float value =>
      cases right <;> simp only [PythonValue.WrittenAs] at leftWritten rightWritten <;>
        simp only [PythonValue.Same] <;> grind [repr_injective, intText_ne_repr]

mutual

/-- Settled values have one document exactly when they are the same. -/
theorem same_iff : ∀ {left right : PythonValue φ}
    {first second : JsonValue}, left.Settled text numbers →
    right.Settled text numbers → left.WrittenAs numbers first → right.WrittenAs numbers second →
    (left.Same right ↔ first = second)
  | .mapping lefts, right, first, second, leftSettled, rightSettled, leftWritten, rightWritten => by
      obtain ⟨leftDocuments, rfl, leftWritten⟩ := leftWritten
      simp only [PythonValue.Settled] at leftSettled
      cases right with
      | mapping rights =>
          obtain ⟨rightDocuments, rfl, rightWritten⟩ := rightWritten
          simp only [PythonValue.Settled] at rightSettled
          have members := sameMembers_documents leftSettled.2 rightSettled.2
            leftWritten rightWritten
          have arranged := sorted_eq_iff rightDocuments
            (documentMembers_nodup leftWritten leftSettled.1)
          simp only [PythonValue.Same, members, documentMembers_length leftWritten,
            documentMembers_length rightWritten, JsonValue.object.injEq, arranged]
      | sequence rights =>
          obtain ⟨documents, rfl, _⟩ := rightWritten
          simp [PythonValue.Same]
      | null | bool | int | float | str | other =>
          simp only [PythonValue.Same, false_iff]
          rintro rfl
          simp [PythonValue.WrittenAs] at rightWritten
  | .sequence lefts, right, first, second, leftSettled, rightSettled, leftWritten, rightWritten =>
      by
      obtain ⟨leftDocuments, rfl, leftWritten⟩ := leftWritten
      simp only [PythonValue.Settled] at leftSettled
      cases right with
      | sequence rights =>
          obtain ⟨rightDocuments, rfl, rightWritten⟩ := rightWritten
          simp only [PythonValue.Settled] at rightSettled
          simp only [PythonValue.Same, JsonValue.array.injEq]
          exact sameItems_iff leftSettled rightSettled leftWritten rightWritten
      | mapping rights =>
          obtain ⟨documents, rfl, _⟩ := rightWritten
          simp [PythonValue.Same]
      | null | bool | int | float | str | other =>
          simp only [PythonValue.Same, false_iff]
          rintro rfl
          simp [PythonValue.WrittenAs] at rightWritten
  | .null, right, first, second, _, _, leftWritten, rightWritten => by
      have shape : first = .scalar .null := leftWritten
      subst shape
      exact same_scalar leftWritten rightWritten
  | .bool value, right, first, second, _, _, leftWritten, rightWritten => by
      have shape : first = .scalar (.bool value) := leftWritten
      subst shape
      exact same_scalar leftWritten rightWritten
  | .str value, right, first, second, _, _, leftWritten, rightWritten => by
      have shape : first = .scalar (.string value) := leftWritten
      subst shape
      exact same_scalar leftWritten rightWritten
  | .int value, right, first, second, _, _, leftWritten, rightWritten => by
      obtain rfl : first = .scalar (.number (String.ofList (intText value))) := leftWritten.1
      exact same_scalar leftWritten rightWritten
  | .float value, right, first, second, _, _, leftWritten, rightWritten => by
      obtain rfl : first = .scalar (.number (numbers.repr value)) := leftWritten.1
      exact same_scalar leftWritten rightWritten
  | .other _, _, _, _, settled, _, _, _ => settled.elim

theorem sameItems_iff : ∀ {lefts rights : List (PythonValue φ)} {first second : List JsonValue},
    ItemsSettled text numbers lefts → ItemsSettled text numbers rights →
    documentItems numbers lefts = .ok first →
    documentItems numbers rights = .ok second → (SameItems lefts rights ↔ first = second)
  | [], [], _, _, _, _, leftWritten, rightWritten => by
      cases leftWritten
      cases rightWritten
      simp [SameItems]
  | [], right :: rights, _, _, _, _, leftWritten, rightWritten => by
      cases leftWritten
      simp only [documentItems, bind_ok, pure_ok] at rightWritten
      obtain ⟨_, _, _, _, rfl⟩ := rightWritten
      simp [SameItems]
  | left :: lefts, [], _, _, _, _, leftWritten, rightWritten => by
      cases rightWritten
      simp only [documentItems, bind_ok, pure_ok] at leftWritten
      obtain ⟨_, _, _, _, rfl⟩ := leftWritten
      simp [SameItems]
  | left :: lefts, right :: rights, _, _, leftSettled, rightSettled, leftWritten, rightWritten => by
      simp only [documentItems, bind_ok, pure_ok,
        ItemsSettled] at leftSettled rightSettled leftWritten rightWritten
      obtain ⟨leftFirst, leftHead, leftOthers, leftTail, rfl⟩ := leftWritten
      obtain ⟨rightFirst, rightHead, rightOthers, rightTail, rfl⟩ := rightWritten
      simp only [SameItems, List.cons.injEq,
        same_iff leftSettled.1 rightSettled.1 (document_written.mp leftHead)
          (document_written.mp rightHead),
        sameItems_iff leftSettled.2 rightSettled.2 leftTail rightTail]

theorem sameMembers_documents : ∀ {lefts rights : List (Option String × PythonValue φ)}
    {first second : List (String × JsonValue)}, MembersSettled text numbers lefts →
    MembersSettled text numbers rights →
    documentMembers numbers lefts = .ok first → documentMembers numbers rights = .ok second →
    (SameMembers lefts rights ↔ ∀ entry ∈ first, entry ∈ second)
  | [], _, _, _, _, _, leftWritten, _ => by
      cases leftWritten
      simp [SameMembers]
  | (none, _) :: _, _, _, _, _, _, leftWritten, _ => by cases leftWritten
  | (some name,
      left) :: lefts, rights, _, second, leftSettled, rightSettled, leftWritten, rightWritten => by
      simp only [documentMembers, bind_ok, pure_ok, MembersSettled] at leftSettled leftWritten
      obtain ⟨first, head, others, tail, rfl⟩ := leftWritten
      have one : (∃ other, (some name, other) ∈ rights ∧ left.Same other) ↔
          (name, first) ∈ second := by
        rw [mem_documentMembers rightWritten]
        constructor
        · rintro ⟨other, inside, same⟩
          obtain ⟨document, written⟩ := mem_written rightWritten inside
          obtain rfl := (same_iff leftSettled.2.1 (membersSettled_mem rightSettled inside)
            (document_written.mp head) (document_written.mp written)).mp same
          exact ⟨other, inside, written⟩
        · rintro ⟨other, inside, written⟩
          exact ⟨other, inside, (same_iff leftSettled.2.1 (membersSettled_mem rightSettled inside)
            (document_written.mp head) (document_written.mp written)).mpr rfl⟩
      simp only [SameMembers, one, List.forall_mem_cons,
        sameMembers_documents leftSettled.2.2 rightSettled tail rightWritten]

end

/-- A document whose text is read as a settled value that is written as the same document. -/
def ReadBack (text : TextSupport) (numbers : NumberSupport φ) (document : JsonValue) : Prop :=
  NumbersRead document ∧ ∃ value : PythonValue φ, PythonValue.ofJson numbers document = some value ∧
    value.Settled text numbers ∧ value.WrittenAs numbers document

theorem dictionary_nodup {members : List (String × PythonValue φ)}
    (distinct : (members.map Prod.fst).Nodup) :
    dictionary members = members.map fun member => (some member.1, member.2) := by
  have folded : ∀ (rest : List (String × PythonValue φ))
    (known : List (Option String × PythonValue φ)),
      (rest.map Prod.fst).Nodup → (∀ member ∈ rest, some member.1 ∉ known.map Prod.fst) →
      rest.foldl (fun known member =>
        if known.any fun entry => entry.1 = some member.1 then
          known.map fun entry => if entry.1 = some member.1 then (some member.1, member.2)
            else entry
        else known ++ [(some member.1, member.2)]) known =
        known ++ rest.map fun member => (some member.1, member.2) := by
    intro rest
    induction rest with
    | nil => simp
    | cons member rest ih =>
        intro known distinct fresh
        obtain ⟨first, others⟩ := List.nodup_cons.mp distinct
        obtain ⟨absent, later⟩ := List.forall_mem_cons.mp fresh
        have unknown : (known.any fun entry => entry.1 = some member.1) = false := by
          rw [List.any_eq_false]
          intro entry inside
          simp only [decide_eq_true_eq]
          rintro same
          exact absent (same ▸ List.mem_map_of_mem inside)
        simp only [List.foldl_cons, unknown, Bool.false_eq_true, if_false, List.map_cons]
        rw [ih _ others]
        · simp
        · intro other inside
          simp only [List.map_append, List.map_cons, List.map_nil, List.mem_append,
            List.mem_singleton, Option.some.injEq, not_or]
          refine ⟨later other inside, fun same => first ?_⟩
          exact same ▸ List.mem_map_of_mem inside
  have all := folded members [] distinct (by simp)
  simpa [dictionary] using all

theorem readBack_items {documents : List JsonValue}
    (each : ∀ document ∈ documents, ReadBack text numbers document) :
    ∃ items : List (PythonValue φ), ofJsonItems numbers documents = some items ∧
    ItemsSettled text numbers items ∧
      documentItems numbers items = .ok documents := by
  induction documents with
  | nil => exact ⟨[], rfl, trivial, rfl⟩
  | cons document rest ih =>
      obtain ⟨⟨_, item, read, settled, written⟩, others⟩ := List.forall_mem_cons.mp each
      obtain ⟨items, readRest, settledRest, writtenRest⟩ := ih others
      refine ⟨item :: items, by simp [ofJsonItems, read, readRest], ⟨settled, settledRest⟩, ?_⟩
      simp only [documentItems, bind_ok, pure_ok]
      exact ⟨document, document_written.mpr written, rest, writtenRest, rfl⟩

theorem readBack_members {documents : List (String × JsonValue)}
    (each : ∀ entry ∈ documents, ReadBack text numbers entry.2 ∧ text.nfc entry.1 = entry.1) :
    ∃ members : List (String × PythonValue φ), ofJsonMembers numbers documents = some members ∧
      members.map Prod.fst = documents.map Prod.fst ∧
      MembersSettled text numbers (members.map fun member => (some member.1, member.2)) ∧
      documentMembers numbers (members.map fun member => (some member.1, member.2)) =
        .ok documents := by
  induction documents with
  | nil => exact ⟨[], rfl, rfl, trivial, rfl⟩
  | cons entry rest ih =>
      obtain ⟨name, document⟩ := entry
      obtain ⟨⟨⟨_, item, read, settled, written⟩, composed⟩, others⟩ := List.forall_mem_cons.mp each
      obtain ⟨members, readRest, names, settledRest, writtenRest⟩ := ih others
      refine ⟨(name, item) :: members, by simp [ofJsonMembers, read, readRest], by simp [names],
        ⟨⟨rfl, congrArg some composed⟩, settled, settledRest⟩, ?_⟩
      simp only [List.map_cons, documentMembers, bind_ok, pure_ok]
      exact ⟨document, document_written.mpr written, rest, writtenRest, rfl⟩

theorem readBack_object {documents : List (String × JsonValue)}
    (distinct : (documents.map Prod.fst).Nodup)
    (each : ∀ entry ∈ documents, ReadBack text numbers entry.2 ∧ text.nfc entry.1 = entry.1) :
    ReadBack text numbers (.object (documents.insertionSort NamedBefore)) := by
  have perm := List.perm_insertionSort NamedBefore documents
  have sortedDistinct : ((documents.insertionSort NamedBefore).map Prod.fst).Nodup :=
    (perm.map Prod.fst).nodup_iff.mpr distinct
  have sortedEach : ∀ entry ∈ documents.insertionSort NamedBefore,
      ReadBack text numbers entry.2 ∧ text.nfc entry.1 = entry.1 :=
        fun entry inside => each entry (perm.subset inside)
  obtain ⟨members, read, names, settled, written⟩ := readBack_members sortedEach
  have memberNames : (members.map Prod.fst).Nodup := names ▸ sortedDistinct
  refine ⟨?_, .mapping (members.map fun member => (some member.1, member.2)), ?_, ⟨?_, settled⟩, ?_⟩
  · simp only [NumbersRead, membersRead_iff]
    exact fun entry inside => (sortedEach entry inside).1.1
  · simp [PythonValue.ofJson, read, dictionary_nodup memberNames]
  · simpa [List.map_map, Function.comp_def] using memberNames.map (Option.some_injective _)
  · refine ⟨_, ?_, written⟩
    rw [List.Pairwise.insertionSort_eq (List.pairwise_insertionSort NamedBefore documents)]

mutual

theorem settled_readBack : ∀ {value : PythonValue φ}
    {document : JsonValue}, value.Settled text numbers →
    value.WrittenAs numbers document → ReadBack text numbers document
  | .null, _, settled, written => by
      cases written
      exact ⟨trivial, .null, rfl, settled, rfl⟩
  | .bool value, _, settled, written => by
      cases written
      exact ⟨trivial, .bool value, rfl, settled, rfl⟩
  | .str value, _, settled, written => by
      cases written
      exact ⟨trivial, .str value, rfl, settled, rfl⟩
  | .int value, _, settled, written => by
      obtain ⟨rfl, short⟩ := written
      refine ⟨by simpa [NumbersRead] using intText_number value, .int value, ?_,
        settled, rfl, short⟩
      simp [PythonValue.ofJson, intText_integral, readInt_intText short]
  | .float value, _, settled, written => by
      obtain ⟨rfl, finite⟩ := written
      refine ⟨by simpa [NumbersRead] using numbers.repr_number value finite, .float value, ?_,
        settled, rfl, finite⟩
      simp [PythonValue.ofJson, repr_fraction finite, numbers.parse_repr value finite]
  | .sequence items, _, settled, written => by
      obtain ⟨documents, rfl, written⟩ := written
      have each := settled_readBackItems settled written
      obtain ⟨read, ofItems, settledRead, writtenRead⟩ := readBack_items each
      refine ⟨?_, .sequence read, by simp [PythonValue.ofJson, ofItems], settledRead, documents,
        rfl, writtenRead⟩
      simp only [NumbersRead, itemsRead_iff]
      exact fun document inside => (each document inside).1
  | .mapping members, _, settled, written => by
      obtain ⟨documents, rfl, written⟩ := written
      simp only [PythonValue.Settled] at settled
      exact readBack_object (documentMembers_nodup written settled.1)
        (settled_readBackMembers settled.2 written)
  | .other _, _, settled, _ => settled.elim

theorem settled_readBackItems : ∀ {items : List (PythonValue φ)} {documents : List JsonValue},
    ItemsSettled text numbers items → documentItems numbers items = .ok documents →
    ∀ document ∈ documents, ReadBack text numbers document
  | [], _, _, written => by
      cases written
      simp
  | item :: rest, _, settled, written => by
      simp only [documentItems, bind_ok, pure_ok, ItemsSettled] at settled written
      obtain ⟨first, head, others, tail, rfl⟩ := written
      exact List.forall_mem_cons.mpr ⟨settled_readBack settled.1 (document_written.mp head),
        settled_readBackItems settled.2 tail⟩

theorem settled_readBackMembers : ∀ {members : List (Option String × PythonValue φ)}
    {documents : List (String × JsonValue)}, MembersSettled text numbers members →
    documentMembers numbers members = .ok documents →
    ∀ entry ∈ documents, ReadBack text numbers entry.2 ∧ text.nfc entry.1 = entry.1
  | [], _, _, written => by
      cases written
      simp
  | (none, _) :: _, _, _, written => by cases written
  | (some name, item) :: rest, _, settled, written => by
      simp only [documentMembers, bind_ok, pure_ok, MembersSettled] at settled written
      obtain ⟨first, head, others, tail, rfl⟩ := written
      exact List.forall_mem_cons.mpr ⟨⟨settled_readBack settled.2.1 (document_written.mp head),
        Option.some.inj settled.1.2⟩, settled_readBackMembers settled.2.2 tail⟩

end

theorem canonicalJsonBytes_ok :
    canonicalJsonBytes text numbers value = .ok bytes ↔ ∃ normalized document,
      value.normalize text numbers = .ok normalized ∧ normalized.WrittenAs numbers document ∧
        (String.ofList (printValue document)).toByteArray = bytes := by
  simp only [canonicalJsonBytes, bind_ok, pure_ok, document_written]
  constructor
  · rintro ⟨normalized, accepted, document, written, same⟩
    exact ⟨normalized, document, accepted, written, same⟩
  · rintro ⟨normalized, document, accepted, written, same⟩
    exact ⟨normalized, accepted, document, written, same⟩

theorem jsonLoads_written (read : NumbersRead document) :
    jsonLoads numbers (String.ofList (printValue document)).toByteArray =
      PythonValue.ofJson numbers document := by
  have decoded : String.fromUTF8? (String.ofList (printValue document)).toByteArray =
      some (String.ofList (printValue document)) := by
    rw [String.fromUTF8?, dif_pos (String.isValidUTF8 _)]
    rfl
  simp only [jsonLoads, decoded, Option.bind_eq_bind, Option.bind_some, String.toList_ofList,
    parse_print read]

theorem canonicalJsonBytes_eq_iff
    (leftAccepted : canonicalJsonBytes text numbers left = .ok leftBytes)
    (rightAccepted : canonicalJsonBytes text numbers right = .ok rightBytes) :
    leftBytes = rightBytes ↔ (left.nfcAll text).Same (right.nfcAll text) := by
  obtain ⟨leftNormal, leftDocument, leftNormalized, leftWritten, rfl⟩ :=
    canonicalJsonBytes_ok.mp leftAccepted
  obtain ⟨rightNormal, rightDocument, rightNormalized, rightWritten, rfl⟩ :=
    canonicalJsonBytes_ok.mp rightAccepted
  obtain ⟨rfl, leftSettled⟩ := normalize_settled leftNormalized
  obtain ⟨rfl, rightSettled⟩ := normalize_settled rightNormalized
  rw [same_iff leftSettled rightSettled leftWritten rightWritten, String.toByteArray_inj]
  constructor
  · intro same
    exact printValue_injective (settled_readBack leftSettled leftWritten).1
      (settled_readBack rightSettled rightWritten).1 (String.ofList_injective same)
  · rintro rfl
    rfl

theorem canonicalJsonBytes_decoded (accepted : canonicalJsonBytes text numbers value = .ok bytes) :
    ∃ decoded, jsonLoads numbers bytes = some decoded ∧
      canonicalJsonBytes text numbers decoded = .ok bytes := by
  obtain ⟨normal, document, normalized, written, rfl⟩ := canonicalJsonBytes_ok.mp accepted
  obtain ⟨_, settled⟩ := normalize_settled normalized
  obtain ⟨read, decoded, ofJson, decodedSettled, decodedWritten⟩ := settled_readBack settled written
  exact ⟨decoded, (jsonLoads_written read).trans ofJson,
    canonicalJsonBytes_ok.mpr ⟨decoded, document, settled_normalize decodedSettled,
      decodedWritten, rfl⟩⟩

/-- Canonical bytes agree exactly for values that agree once composed; they are read back as a
value with the same bytes; and keys that composition merges are refused. -/
theorem canonicalJson_canonical {φ : Type} (text : TextSupport) (numbers : NumberSupport φ) :
    (∀ left right : PythonValue φ, ∀ leftBytes rightBytes,
      canonicalJsonBytes text numbers left = .ok leftBytes →
      canonicalJsonBytes text numbers right = .ok rightBytes →
      (leftBytes = rightBytes ↔ (left.nfcAll text).Same (right.nfcAll text))) ∧
    (∀ value : PythonValue φ, ∀ bytes, canonicalJsonBytes text numbers value = .ok bytes →
      ∃ decoded, jsonLoads numbers bytes = some decoded ∧
      canonicalJsonBytes text numbers decoded = .ok bytes) ∧
    ∀ value : PythonValue φ, value.Collides text →
      ∃ reason, canonicalJsonBytes text numbers value = .error reason := by
  refine ⟨fun left right leftBytes rightBytes leftAccepted rightAccepted => ?_,
    fun value bytes accepted => ?_, fun value collides => ?_⟩
  · exact canonicalJsonBytes_eq_iff leftAccepted rightAccepted
  · exact canonicalJsonBytes_decoded accepted
  · cases outcome : canonicalJsonBytes text numbers value with
    | error reason => exact ⟨reason, rfl⟩
    | ok bytes =>
        obtain ⟨normal, _, normalized, _⟩ := canonicalJsonBytes_ok.mp outcome
        exact absurd normalized (collides_refused collides normal)

theorem frozenJsonMapping_bytes
    (accepted : frozenJsonMapping text numbers value fieldName = .ok frozen) :
    ∃ bytes, canonicalJsonBytes text numbers value = .ok bytes ∧
      canonicalJsonBytes text numbers frozen = .ok bytes := by
  cases value with
  | mapping members =>
      simp only [frozenJsonMapping, bind_ok, requireSome_ok] at accepted
      obtain ⟨bytes, written, loaded⟩ := accepted
      obtain ⟨normal, document, normalized, documented, rfl⟩ := canonicalJsonBytes_ok.mp written
      obtain ⟨read, decoded, ofJson, settled, rewritten⟩ :=
        settled_readBack (normalize_settled normalized).2 documented
      obtain rfl : decoded = frozen :=
        Option.some.inj (ofJson.symm.trans ((jsonLoads_written read).symm.trans loaded))
      exact ⟨_, written, canonicalJsonBytes_ok.mpr
        ⟨decoded, document, settled_normalize settled, rewritten, rfl⟩⟩
  | null | bool | int | float | str | sequence | other =>
      simp [frozenJsonMapping, reject_ok] at accepted

end

def acute : String := String.ofList [Char.ofNat 0xe9]

def decomposedAcute : String := String.ofList ['e', Char.ofNat 0x301]

def acuteSupport : TextSupport where
  nfc value := if value = decomposedAcute then acute else value
  strip value := value
  lower value := value
  nfc_idempotent value := by
    by_cases decomposed : value = decomposedAcute
    · simp [decomposed, show acute ≠ decomposedAcute by decide +kernel]
    · simp [decomposed]

/-- One half is the only finite float. -/
def halfSupport : NumberSupport Bool where
  finite value := value
  repr value := if value then "0.5" else "inf"
  parse text := text = "0.5"
  maxStrDigits := 4300
  repr_number value finite := by
    subst finite
    decide +kernel
  repr_fractional value finite := by
    subst finite
    exact ⟨'.', by decide +kernel, List.mem_cons_self⟩
  parse_repr value finite := by
    subst finite
    rfl

def decomposedMapping : PythonValue Bool :=
  .mapping [(some decomposedAcute, .bool true), (some "b", .sequence [.int 1, .float true])]

def composedMapping : PythonValue Bool :=
  .mapping [(some "b", .sequence [.int 1, .float true]), (some acute, .bool true)]

def collidingMapping : PythonValue Bool :=
  .sequence [.mapping [(some decomposedAcute, .bool true), (some acute, .bool true)]]

theorem acute_composed : acuteSupport.nfc decomposedAcute = acute := by decide +kernel

theorem decomposedMapping_nfcAll : decomposedMapping.nfcAll acuteSupport =
    .mapping [(some acute, .bool true), (some "b", .sequence [.int 1, .float true])] := by
  simp only [decomposedMapping, PythonValue.nfcAll, nfcMembers, nfcItems, Option.map_some,
    acute_composed]
  rfl

theorem acute_same : (decomposedMapping.nfcAll acuteSupport).Same
    (composedMapping.nfcAll acuteSupport) := by
  rw [decomposedMapping_nfcAll, show composedMapping.nfcAll acuteSupport = composedMapping from rfl]
  exact ⟨rfl, ⟨.bool true, List.mem_cons_of_mem _ List.mem_cons_self, rfl⟩,
    ⟨.sequence [.int 1, .float true], List.mem_cons_self, rfl, rfl, trivial⟩, trivial⟩

theorem canonicalJson_canonical_acute :
    (∃ bytes, canonicalJsonBytes acuteSupport halfSupport decomposedMapping = .ok bytes ∧
      canonicalJsonBytes acuteSupport halfSupport composedMapping = .ok bytes) ∧
    ∃ reason, canonicalJsonBytes acuteSupport halfSupport collidingMapping = .error reason := by
  obtain ⟨binding, _, refusing⟩ := canonicalJson_canonical acuteSupport halfSupport
  constructor
  · have left : (canonicalJsonBytes acuteSupport halfSupport decomposedMapping).isOk = true := by
      decide +kernel
    have right : (canonicalJsonBytes acuteSupport halfSupport composedMapping).isOk = true := by
      decide +kernel
    cases leftWritten : canonicalJsonBytes acuteSupport halfSupport decomposedMapping with
    | error reason => simp [leftWritten, Except.isOk, Except.toBool] at left
    | ok bytes =>
        cases rightWritten : canonicalJsonBytes acuteSupport halfSupport composedMapping with
        | error reason => simp [rightWritten, Except.isOk, Except.toBool] at right
        | ok others =>
            obtain rfl := (binding _ _ bytes others leftWritten rightWritten).mpr acute_same
            exact ⟨bytes, rfl, rfl⟩
  · refine refusing collidingMapping (.item List.mem_cons_self ?_)
    exact .keys List.mem_cons_self (List.mem_cons_of_mem _ List.mem_cons_self) (by decide +kernel)
      (by decide +kernel)

end MarketingAgents
