import MarketingAgents.Domain.CanonicalWriting
import MarketingAgents.Domain.InstanceConfiguration

namespace MarketingAgents

open Library
open Library.JsonText

/-! # Plain identifiers

Stable identifiers, digests and slugs consist of plain characters, so that
composition leaves them alone and each takes one byte.
-/

/-- Only characters of one byte. -/
def PlainText (value : String) : Prop := ∀ character ∈ value.toList, character.toNat < 128

section

variable {value fieldName : String} {character : Char}

theorem plain_of_le {upper : Char} (below : character ≤ upper) (small : upper.toNat < 128) :
    character.toNat < 128 :=
  lt_of_le_of_lt (Char.le_def.mp below) small

theorem alphanumeric_plain (holds : alphanumeric character = true) : character.toNat < 128 := by
  simp only [alphanumeric, Bool.or_eq_true, Bool.and_eq_true, decide_eq_true_eq] at holds
  rcases holds with (upper | lower) | digit
  · exact plain_of_le upper.2 (by decide)
  · exact plain_of_le lower.2 (by decide)
  · exact plain_of_le digit.2 (by decide)

theorem hexadecimal_plain (holds : hexadecimal character = true) : character.toNat < 128 := by
  simp only [hexadecimal, Bool.or_eq_true, Bool.and_eq_true, decide_eq_true_eq] at holds
  rcases holds with digit | letter
  · exact plain_of_le digit.2 (by decide)
  · exact plain_of_le letter.2 (by decide)

theorem lowerAlphanumeric_plain (holds : lowerAlphanumeric character = true) :
    character.toNat < 128 := by
  simp only [lowerAlphanumeric, Bool.or_eq_true, Bool.and_eq_true, decide_eq_true_eq] at holds
  rcases holds with letter | digit
  · exact plain_of_le letter.2 (by decide)
  · exact plain_of_le digit.2 (by decide)

theorem marked_plain {marks : List Char} (small : ∀ mark ∈ marks, mark.toNat < 128)
    (holds : (alphanumeric character || decide (character ∈ marks)) = true) :
      character.toNat < 128 := by
  simp only [Bool.or_eq_true, decide_eq_true_eq] at holds
  rcases holds with letter | mark
  · exact alphanumeric_plain letter
  · exact small _ mark

theorem requireId_plain (stable : requireId value fieldName = .ok ()) :
    PlainText value ∧ value.toList.length ≤ 240 := by
  rw [requireId, require_ok, List.all_eq_true] at stable
  exact ⟨fun character member => marked_plain (plain_of_all (by decide))
    (stable.2.2 character member), stable.2.1⟩

theorem digestText_plain (digest : digestText characters = true) :
    (∀ character ∈ characters, character.toNat < 128) ∧ characters.length = 64 := by
  simp only [digestText, Bool.and_eq_true, decide_eq_true_eq, List.all_eq_true] at digest
  exact ⟨fun character member => hexadecimal_plain (digest.2 character member), digest.1⟩

theorem requireDigest_plain (digest : requireDigest value fieldName = .ok ()) :
    PlainText value ∧ value.toList.length = 64 := by
  rw [requireDigest, require_ok] at digest
  exact digestText_plain digest

theorem requireSchemaHash_plain (hash : requireSchemaHash value fieldName = .ok ()) :
    PlainText value ∧ value.toList.length = 81 := by
  rw [requireSchemaHash, require_ok] at hash
  obtain ⟨⟨rest, split⟩, digest⟩ := hash
  rw [← split, List.drop_left] at digest
  obtain ⟨plain, length⟩ := digestText_plain digest
  rw [PlainText, ← split]
  refine ⟨fun character member => ?_, ?_⟩
  · rcases List.mem_append.mp member with inStart | inRest
    · have start : ∀ character ∈ "schema-sha256-v1:".toList, character.toNat < 128 :=
        plain_of_all (by decide)
      exact start character inStart
    · exact plain character inRest
  · rw [List.length_append, length]
    decide

theorem mem_intercalate {α : Type} {mark entry : α} {segments : List (List α)}
    (member : entry ∈ List.intercalate [mark] segments) :
      entry = mark ∨ ∃ segment ∈ segments, entry ∈ segment := by
  induction segments with
  | nil => simp at member
  | cons first rest ih =>
      cases rest with
      | nil => exact .inr ⟨first, by simp, by simpa using member⟩
      | cons second others =>
          rw [List.intercalate_cons_cons, List.append_assoc, List.mem_append,
            List.mem_append] at member
          rcases member with inFirst | inMark | inRest
          · exact .inr ⟨first, by simp, inFirst⟩
          · exact .inl (List.mem_singleton.mp inMark)
          · rcases ih inRest with same | ⟨segment, listed, inside⟩
            · exact .inl same
            · exact .inr ⟨segment, List.mem_cons_of_mem _ listed, inside⟩

theorem requireConnectorFamily_plain (family : requireConnectorFamily value fieldName = .ok ()) :
    PlainText value ∧ value.toList.length ≤ 100 := by
  rw [requireConnectorFamily, require_ok, slugText, List.all_eq_true] at family
  refine ⟨fun character member => ?_, family.1⟩
  have joined : List.intercalate ['-'] (value.toList.splitOn '-') = value.toList :=
    List.intercalate_splitOn '-'
  rw [← joined] at member
  rcases mem_intercalate member with rfl | ⟨segment, listed, inside⟩
  · decide
  · have letters := family.2 segment listed
    simp only [Bool.and_eq_true, List.all_eq_true] at letters
    exact lowerAlphanumeric_plain (letters.2 character inside)

theorem requireConnectorBindingId_plain
    (bindingId : requireConnectorBindingId value fieldName = .ok ()) :
    PlainText value ∧ value.toList.length ≤ 120 := by
  rw [requireConnectorBindingId, require_ok, List.all_eq_true] at bindingId
  exact ⟨fun character member => marked_plain (plain_of_all (by decide))
    (bindingId.2.2 character member), bindingId.2.1⟩

theorem eventSourceText_plain (source : eventSourceText value.toList = true) :
    PlainText value ∧ value.toList.length ≤ 100 := by
  simp only [eventSourceText, Bool.and_eq_true, decide_eq_true_eq, List.all_eq_true] at source
  refine ⟨fun character member => ?_, source.1.2⟩
  have marked := source.2 character member
  simp only [Bool.or_eq_true, decide_eq_true_eq] at marked
  rcases marked with letter | mark
  · exact alphanumeric_plain letter
  · have marks : ∀ mark ∈ ['.', '_', ':', '-'], mark.toNat < 128 := plain_of_all (by decide)
    exact marks _ mark

theorem PlainText.size (plain : PlainText value) : value.utf8ByteSize = value.toList.length := by
  rw [← textSize_toList, textSize_plain plain]

end

end MarketingAgents
