import Mathlib
import MarketingAgents.Library.JsonText

namespace MarketingAgents.Library.JsonText

/-! # Sizes of JSON texts in UTF-8 -/

/-- The bytes of a text. -/
def textSize (text : List Char) : Nat := (text.map Char.utf8Size).sum

/-- The bytes of the text of a value. -/
def valueSize (value : JsonValue) : Nat := textSize (printValue value)

section

variable {text other : List Char}

theorem utf8ByteSize_ofList (text : List Char) :
    (String.ofList text).utf8ByteSize = textSize text := by
  induction text with
  | nil => rfl
  | cons first rest ih =>
      rw [show first :: rest = [first] ++ rest from rfl, String.ofList_append,
        String.utf8ByteSize_append, ih]
      simp [textSize, String.utf8ByteSize_singleton]

theorem textSize_toList (text : String) : textSize text.toList = text.utf8ByteSize := by
  rw [← utf8ByteSize_ofList, String.ofList_toList]

@[simp] theorem textSize_nil : textSize [] = 0 := rfl

@[simp] theorem textSize_cons (first : Char) (rest : List Char) :
    textSize (first :: rest) = first.utf8Size + textSize rest := rfl

@[simp] theorem textSize_append : textSize (text ++ other) = textSize text + textSize other := by
  simp [textSize]

theorem utf8Size_plain {character : Char} (plain : character.toNat < 128) :
    character.utf8Size = 1 := by
  rw [Char.utf8Size_eq_one_iff]
  show character.val.toNat ≤ 127
  exact Nat.le_of_lt_succ plain

/-- Plain text takes one byte for each character. -/
theorem textSize_plain (plain : ∀ character ∈ text, character.toNat < 128) :
    textSize text = text.length := by
  induction text with
  | nil => rfl
  | cons first rest ih =>
      obtain ⟨head, tail⟩ := List.forall_mem_cons.mp plain
      rw [textSize_cons, utf8Size_plain head, ih tail, List.length_cons, Nat.add_comm]

theorem textSize_le (text : List Char) : textSize text ≤ 4 * text.length := by
  induction text with
  | nil => simp
  | cons first rest ih =>
      have bound := Char.utf8Size_le_four first
      simp only [textSize_cons, List.length_cons]
      omega

end

theorem digitChar_plain {digit : Nat} (small : digit < 16) : (Nat.digitChar digit).toNat < 128 := by
  have each : ∀ digit, digit < 16 → (Nat.digitChar digit).toNat < 128 := by decide
  exact each digit small

/-- An escape takes at most six bytes for each byte of its character. -/
theorem textSize_escapeChar (character : Char) :
    textSize (escapeChar character) ≤ 6 * character.utf8Size := by
  have positive := Char.utf8Size_pos character
  unfold escapeChar
  split
  · rename_i letter short
    have letters : ∀ escape ∈ shortEscapes, escape.2.toNat < 128 := by decide
    have plain : letter.toNat < 128 :=
      letters (character, letter) (List.mem_of_find?_eq_some (shortEscapes_read short).2.2)
    have mark : backslash.utf8Size = 1 := by decide
    simp only [textSize_cons, textSize_nil, utf8Size_plain plain, mark]
    omega
  · split
    · rename_i control
      have plain : ∀ written ∈ [backslash, 'u', '0', '0', Nat.digitChar (character.toNat / 16),
          Nat.digitChar (character.toNat % 16)], written.toNat < 128 := by
        simp only [List.forall_mem_cons, List.not_mem_nil, false_implies, implies_true, and_true]
        refine ⟨by decide, by decide, by decide, by decide, digitChar_plain ?_,
          digitChar_plain ?_⟩ <;> omega
      rw [textSize_plain plain]
      simp only [List.length_cons, List.length_nil]
      omega
    · simp only [textSize_cons, textSize_nil]
      omega

theorem textSize_printString (text : String) :
    textSize (printString text) ≤ 6 * text.utf8ByteSize + 2 := by
  have quoted : quote.utf8Size = 1 := by decide
  have escaped : ∀ characters : List Char, textSize (characters.flatMap escapeChar) ≤
      6 * textSize characters := by
    intro characters
    induction characters with
    | nil => simp
    | cons first rest ih =>
        have head := textSize_escapeChar first
        simp only [List.flatMap_cons, textSize_append, textSize_cons]
        omega
  have body := escaped text.toList
  rw [textSize_toList] at body
  simp only [printString, textSize_cons, textSize_append, textSize_nil, quoted]
  omega

theorem textSize_printItems (items : List JsonValue) :
    textSize (printItems items) ≤ (items.map fun item => valueSize item + 1).sum + 1 := by
  induction items with
  | nil => decide
  | cons item rest ih =>
      cases rest with
      | nil =>
          have close : (']' : Char).utf8Size = 1 := by decide
          simp only [printItems, textSize_append, textSize_cons, textSize_nil, close,
            List.map_cons, List.map_nil, List.sum_cons, List.sum_nil, valueSize]
          omega
      | cons next others =>
          have comma : (',' : Char).utf8Size = 1 := by decide
          simp only [printItems, textSize_append, textSize_cons, comma, List.map_cons,
            List.sum_cons, valueSize] at ih ⊢
          omega

theorem textSize_printMembers (members : List (String × JsonValue)) :
    textSize (printMembers members) ≤
      (members.map fun member => 6 * member.1.utf8ByteSize + valueSize member.2 + 4).sum + 1 := by
  induction members with
  | nil => decide
  | cons member rest ih =>
      obtain ⟨name, item⟩ := member
      have named := textSize_printString name
      have colon : (':' : Char).utf8Size = 1 := by decide
      cases rest with
      | nil =>
          have close : ('}' : Char).utf8Size = 1 := by decide
          simp only [printMembers, textSize_append, textSize_cons, textSize_nil, close, colon,
            List.map_cons, List.map_nil, List.sum_cons, List.sum_nil, valueSize]
          omega
      | cons next others =>
          have comma : (',' : Char).utf8Size = 1 := by decide
          simp only [printMembers, textSize_append, textSize_cons, comma, colon, List.map_cons,
            List.sum_cons, valueSize] at ih ⊢
          omega

theorem valueSize_array (items : List JsonValue) :
    valueSize (.array items) ≤ (items.map fun item => valueSize item + 1).sum + 2 := by
  have opened : ('[' : Char).utf8Size = 1 := by decide
  have inner := textSize_printItems items
  simp only [valueSize, printValue, textSize_cons, opened] at inner ⊢
  omega

/-- The size of an object does not depend on the order of its members. -/
theorem valueSize_object {members sorted : List (String × JsonValue)} (perm : members.Perm sorted) :
    valueSize (.object sorted) ≤
      (members.map fun member => 6 * member.1.utf8ByteSize + valueSize member.2 + 4).sum + 2 := by
  have opened : ('{' : Char).utf8Size = 1 := by decide
  have inner := textSize_printMembers sorted
  rw [(perm.map fun member => 6 * member.1.utf8ByteSize + valueSize member.2 + 4).sum_eq]
  simp only [valueSize, printValue, textSize_cons, opened] at inner ⊢
  omega

end MarketingAgents.Library.JsonText
