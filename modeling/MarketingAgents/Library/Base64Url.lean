import Mathlib

namespace MarketingAgents.Library.Base64Url

/-! # Base64 for URLs

Three bytes in four characters of an alphabet that needs no escapes, with `=`
behind the last group. What is written is read back, also when the padding was
stripped and is put back by length.
-/

def alphabet : List Char :=
  "ABCDEFGHIJKLMNOPQRSTUVWXYZabcdefghijklmnopqrstuvwxyz0123456789-_".toList

def digit (value : Nat) : Char := alphabet.getD value 'A'

/-- The six bits of a character. The two usual characters beside the alphabet are read as well. -/
def digitValue (character : Char) : Option Nat :=
  if character = '+' then some 62
  else if character = '/' then some 63
  else if character ∈ alphabet then some (alphabet.idxOf character)
  else none

def encode : List UInt8 → List Char
  | [] => []
  | [first] => [digit (first.toNat / 4), digit (first.toNat % 4 * 16), '=', '=']
  | [first, second] =>
      [digit (first.toNat / 4), digit (first.toNat % 4 * 16 + second.toNat / 16),
        digit (second.toNat % 16 * 4), '=']
  | first :: second :: third :: rest =>
      digit (first.toNat / 4) :: digit (first.toNat % 4 * 16 + second.toNat / 16) ::
        digit (second.toNat % 16 * 4 + third.toNat / 64) :: digit (third.toNat % 64) :: encode rest

/-- The characters in front of the padding. -/
def token (bytes : List UInt8) : List Char :=
  (encode bytes).rdropWhile fun character => character = '='

/-- Fill a text up to whole groups. -/
def pad (text : List Char) : List Char := text ++ List.replicate ((4 - text.length % 4) % 4) '='

/-- Read a text from a place in a group, with the bits that are left of the last
character and the padding that has been seen. -/
def readGroups (place left pads : Nat) (padded : Bool) : List Char → Option (List UInt8)
  | [] => if place = 0 then some [] else none
  | character :: rest =>
      if character = '=' then
        if 2 ≤ place then
          if 4 ≤ place + (pads + 1) then
            if rest = [] then some [] else none
          else readGroups place left (pads + 1) true rest
        else readGroups place left pads true rest
      else
        match digitValue character with
        | none => none
        | some value =>
            if padded then none
            else
              match place with
              | 0 => readGroups 1 value 0 padded rest
              | 1 =>
                (readGroups 2 (value % 16) 0 padded rest).map
                  (UInt8.ofNat (left * 4 + value / 16) :: ·)
              | 2 =>
                (readGroups 3 (value % 4) 0 padded rest).map
                  (UInt8.ofNat (left * 16 + value / 4) :: ·)
              | _ => (readGroups 0 0 0 padded rest).map (UInt8.ofNat (left * 64 + value) :: ·)

/-- Strict reading: no character beside the alphabet, and nothing behind the padding. -/
def decode (text : List Char) : Option (List UInt8) :=
  if text.head? = some '=' then none else readGroups 0 0 0 false text

theorem digitValue_digit {value : Nat} (bounded : value < 64) :
    digitValue (digit value) = some value ∧ digit value ≠ '=' ∧ (digit value).toNat < 128 := by
  have every : ((List.range 64).all fun code => decide (digitValue (digit code) = some code) &&
      decide (digit code ≠ '=') && decide ((digit code).toNat < 128)) = true := by decide +kernel
  simpa [and_assoc] using List.all_eq_true.mp every value (List.mem_range.mpr bounded)

section

variable {place left pads value : Nat} (bounded : value < 64) (rest : List Char)

include bounded

theorem readGroups_first : readGroups 0 left pads false (digit value :: rest) =
    readGroups 1 value 0 false rest := by
  obtain ⟨read, mark, _⟩ := digitValue_digit bounded
  rw [readGroups, if_neg mark, read]
  rfl

theorem readGroups_second : readGroups 1 left pads false (digit value :: rest) =
    (readGroups 2 (value % 16) 0 false rest).map (UInt8.ofNat (left * 4 + value / 16) :: ·) := by
  obtain ⟨read, mark, _⟩ := digitValue_digit bounded
  rw [readGroups, if_neg mark, read]
  rfl

theorem readGroups_third : readGroups 2 left pads false (digit value :: rest) =
    (readGroups 3 (value % 4) 0 false rest).map (UInt8.ofNat (left * 16 + value / 4) :: ·) := by
  obtain ⟨read, mark, _⟩ := digitValue_digit bounded
  rw [readGroups, if_neg mark, read]
  rfl

theorem readGroups_fourth : readGroups 3 left pads false (digit value :: rest) =
    (readGroups 0 0 0 false rest).map (UInt8.ofNat (left * 64 + value) :: ·) := by
  obtain ⟨read, mark, _⟩ := digitValue_digit bounded
  rw [readGroups, if_neg mark, read]
  rfl

end

theorem byte_eq (byte : UInt8) {value : Nat} (same : value = byte.toNat) :
    UInt8.ofNat value = byte := by
  rw [same, UInt8.ofNat_toNat]

theorem readGroups_encode (bytes : List UInt8) :
    readGroups 0 0 0 false (encode bytes) = some bytes := by
  fun_induction encode bytes with
  | case1 => rfl
  | case2 first =>
      have bound := first.toNat_lt
      rw [readGroups_first (by omega), readGroups_second (by omega), byte_eq first (by omega)]
      rfl
  | case3 first second =>
      have bound := first.toNat_lt
      have secondBound := second.toNat_lt
      rw [readGroups_first (by omega), readGroups_second (by omega), readGroups_third (by omega),
        byte_eq first (by omega), byte_eq second (by omega)]
      rfl
  | case4 first second third rest ih =>
      have bound := first.toNat_lt
      have secondBound := second.toNat_lt
      have thirdBound := third.toNat_lt
      rw [readGroups_first (by omega), readGroups_second (by omega), readGroups_third (by omega),
        readGroups_fourth (by omega), byte_eq first (by omega), byte_eq second (by omega),
        byte_eq third (by omega), ih]
      rfl

theorem encode_head (bytes : List UInt8) : (encode bytes).head? ≠ some '=' := by
  have first (byte : UInt8) : digit (byte.toNat / 4) ≠ '=' := by
    have bound := byte.toNat_lt
    exact (digitValue_digit (by omega)).2.1
  fun_cases encode bytes with
  | case1 => simp
  | case2 byte | case3 byte | case4 byte =>
      intro same
      exact first byte (Option.some.inj same)

theorem decode_encode (bytes : List UInt8) : decode (encode bytes) = some bytes := by
  rw [decode, if_neg (encode_head bytes), readGroups_encode]

/-- A coded text is plain characters that are filled up to whole groups. -/
theorem encode_padded (bytes : List UInt8) : ∃ body, encode bytes = pad body ∧
    (∀ character ∈ body, character ≠ '=') ∧ (∀ character ∈ body, character.toNat < 128) ∧
      body.length * 3 ≤ bytes.length * 4 + 2 := by
  have plain {value : Nat} (bounded : value < 64) : digit value ≠ '=' ∧ (digit value).toNat < 128 :=
    (digitValue_digit bounded).2
  fun_induction encode bytes with
  | case1 => exact ⟨[], rfl, by simp, by simp, by simp⟩
  | case2 first =>
      have bound := first.toNat_lt
      have high := plain (show first.toNat / 4 < 64 by omega)
      have low := plain (show first.toNat % 4 * 16 < 64 by omega)
      exact ⟨[digit (first.toNat / 4), digit (first.toNat % 4 * 16)], rfl, by simp [high, low],
        by simp [high, low], by simp⟩
  | case3 first second =>
      have bound := first.toNat_lt
      have secondBound := second.toNat_lt
      have high := plain (show first.toNat / 4 < 64 by omega)
      have middle := plain (show first.toNat % 4 * 16 + second.toNat / 16 < 64 by omega)
      have low := plain (show second.toNat % 16 * 4 < 64 by omega)
      exact ⟨[digit (first.toNat / 4), digit (first.toNat % 4 * 16 + second.toNat / 16),
        digit (second.toNat % 16 * 4)],
        rfl, by simp [high, middle, low], by simp [high, middle, low], by simp⟩
  | case4 first second third rest ih =>
      have bound := first.toNat_lt
      have secondBound := second.toNat_lt
      have thirdBound := third.toNat_lt
      have high := plain (show first.toNat / 4 < 64 by omega)
      have upper := plain (show first.toNat % 4 * 16 + second.toNat / 16 < 64 by omega)
      have lower := plain (show second.toNat % 16 * 4 + third.toNat / 64 < 64 by omega)
      have low := plain (show third.toNat % 64 < 64 by omega)
      obtain ⟨body, coded, unmarked, ascii, size⟩ := ih
      refine ⟨digit (first.toNat / 4) :: digit (first.toNat % 4 * 16 + second.toNat / 16) ::
        digit (second.toNat % 16 * 4 + third.toNat / 64) :: digit (third.toNat % 64) :: body,
          ?_, ?_, ?_, ?_⟩
      · have groups : (body.length + 1 + 1 + 1 + 1) % 4 = body.length % 4 := by omega
        simp only [coded, pad, List.length_cons, groups, List.cons_append]
      · simpa [high, upper, lower, low] using unmarked
      · simpa [high, upper, lower, low] using ascii
      · simp only [List.length_cons]
        omega

theorem rdropWhile_pad {body : List Char} (unmarked : ∀ character ∈ body, character ≠ '=') :
    (pad body).rdropWhile (fun character => character = '=') = body := by
  rw [pad]
  generalize (4 - body.length % 4) % 4 = count
  induction count with
  | zero =>
      rw [List.replicate_zero, List.append_nil, List.rdropWhile_eq_self_iff]
      intro nonempty
      simpa using unmarked _ (List.getLast_mem nonempty)
  | succ count ih =>
      rw [List.replicate_succ', ← List.append_assoc, List.rdropWhile_concat_pos _ _ _ (by simp)]
      exact ih

/-- A stripped text is filled up to the coded one. -/
theorem pad_token (bytes : List UInt8) : pad (token bytes) = encode bytes := by
  obtain ⟨body, coded, unmarked, _⟩ := encode_padded bytes
  rw [token, coded, rdropWhile_pad unmarked]

theorem decode_pad_token (bytes : List UInt8) : decode (pad (token bytes)) = some bytes := by
  rw [pad_token, decode_encode]

theorem token_injective (same : token left = token right) : left = right := by
  have read := decode_pad_token left
  rw [same, decode_pad_token] at read
  exact (Option.some.inj read).symm

theorem token_plain (bytes : List UInt8) :
    (∀ character ∈ token bytes, character.toNat < 128) ∧
      (token bytes).length * 3 ≤ bytes.length * 4 + 2 := by
  obtain ⟨body, coded, unmarked, plain, size⟩ := encode_padded bytes
  rw [token, coded, rdropWhile_pad unmarked]
  exact ⟨plain, size⟩

end MarketingAgents.Library.Base64Url
