import Mathlib.Data.List.Basic

namespace MarketingAgents.Library.UrlEncoded

/-! # The form coding of search parameters

Names and values as percent-coded UTF-8 with `+` for a space, joined by `=` and
`&`. What is written is plain ASCII and is read back as it was.
-/

def hexDigit (value : Nat) : Char := "0123456789ABCDEF".toList.getD value '0'

def hexValue (digit : Char) : Option Nat :=
  if '0' ≤ digit ∧ digit ≤ '9' then some (digit.toNat - 48)
  else if 'A' ≤ digit ∧ digit ≤ 'F' then some (digit.toNat - 55)
  else if 'a' ≤ digit ∧ digit ≤ 'f' then some (digit.toNat - 87)
  else none

def isUnreserved (character : Char) : Bool :=
  character.isAlphanum || character ∈ ['*', '-', '.', '_']

def encodeByte (byte : UInt8) : List Char :=
  let character := Char.ofNat byte.toNat
  if byte.toNat < 128 ∧ isUnreserved character then [character]
  else if character = ' ' then ['+']
  else ['%', hexDigit (byte.toNat / 16), hexDigit (byte.toNat % 16)]

def textBytes (text : String) : List UInt8 := text.toList.flatMap String.utf8EncodeChar

def encodeText (text : String) : List Char := (textBytes text).flatMap encodeByte

/-- The byte of an escape whose `%` has been read. -/
def escaped? : List Char → Option UInt8
  | high :: low :: _ => do
      let upper ← hexValue high
      let lower ← hexValue low
      some (16 * upper + lower).toUInt8
  | _ => none

/-- The bytes of a text, of which the first characters are skipped. -/
def decodeBytes : (skipped : Nat) → List Char → List UInt8
  | _, [] => []
  | skipped + 1, _ :: rest => decodeBytes skipped rest
  | 0, character :: rest =>
      if character = '%' then
        match escaped? rest with
        | some byte => byte :: decodeBytes 2 rest
        | none => String.utf8EncodeChar character ++ decodeBytes 0 rest
      else if character = '+' then 0x20 :: decodeBytes 0 rest
      else String.utf8EncodeChar character ++ decodeBytes 0 rest

/-- Bytes that are no text become one replacement character. -/
def decodeText (text : List Char) : String :=
  match (decodeBytes 0 text).toByteArray.utf8Decode? with
  | some characters => String.ofList characters.toList
  | none => "\uFFFD"

def writePair (pair : String × String) : List Char := encodeText pair.1 ++ '=' :: encodeText pair.2

def readPair (piece : List Char) : String × String :=
  (decodeText (piece.takeWhile (· ≠ '=')), decodeText ((piece.dropWhile (· ≠ '=')).drop 1))

def write (pairs : List (String × String)) : List Char := ['&'].intercalate (pairs.map writePair)

def read (text : List Char) : List (String × String) :=
  ((text.splitOn '&').filter fun piece => !piece.isEmpty).map readPair

theorem hexValue_hexDigit {value : Nat} (bounded : value < 16) :
    hexValue (hexDigit value) = some value := by
  have every : ∀ digit : Fin 16, hexValue (hexDigit digit) = some digit.val := by decide
  exact every ⟨value, bounded⟩

theorem escaped_hexDigits (byte : UInt8) (rest : List Char) :
    escaped? (hexDigit (byte.toNat / 16) :: hexDigit (byte.toNat % 16) :: rest) = some byte := by
  have bounded := byte.toNat_lt
  simp only [escaped?, hexValue_hexDigit (show byte.toNat / 16 < 16 by omega),
    hexValue_hexDigit (Nat.mod_lt byte.toNat (show 0 < 16 by decide)), Option.bind_eq_bind,
      Option.bind_some]
  rw [Nat.div_add_mod byte.toNat 16]
  exact congrArg some UInt8.ofNat_toNat

/-- The plain characters stand for their own byte. -/
theorem plain_byte (byte : UInt8) (ascii : byte.toNat < 128) :
    String.utf8EncodeChar (Char.ofNat byte.toNat) = [byte] := by
  have every : ∀ code : Fin 128, String.utf8EncodeChar (Char.ofNat code) = [UInt8.ofNat code] := by
    decide
  rw [every ⟨byte.toNat, ascii⟩, UInt8.ofNat_toNat]

theorem space_byte (byte : UInt8) (space : Char.ofNat byte.toNat = ' ') : byte = 0x20 := by
  have every : ∀ code : Fin 256, Char.ofNat code = ' ' → code = 32 := by decide +kernel
  have code := every ⟨byte.toNat, byte.toNat_lt⟩ space
  exact UInt8.toNat_inj.mp (congrArg Fin.val code)

theorem decodeBytes_encodeByte (byte : UInt8) (rest : List Char) :
    decodeBytes 0 (encodeByte byte ++ rest) = byte :: decodeBytes 0 rest := by
  unfold encodeByte
  dsimp only
  split
  · next plain =>
      have percent : Char.ofNat byte.toNat ≠ '%' := by
        intro same
        rw [same] at plain
        exact absurd plain.2 (by decide)
      have plus : Char.ofNat byte.toNat ≠ '+' := by
        intro same
        rw [same] at plain
        exact absurd plain.2 (by decide)
      rw [List.singleton_append, decodeBytes, if_neg percent, if_neg plus, plain_byte byte plain.1,
        List.singleton_append]
  · split
    · next space =>
        have code := space_byte byte space
        rw [List.singleton_append, decodeBytes, if_neg (by decide), if_pos rfl, code]
    · rw [List.cons_append, List.cons_append, List.singleton_append, decodeBytes, if_pos rfl,
        escaped_hexDigits]
      rfl

theorem decodeText_encodeText (text : String) : decodeText (encodeText text) = text := by
  have bytes : ∀ list : List UInt8, decodeBytes 0 (list.flatMap encodeByte) = list := by
    intro list
    induction list with
    | nil => rfl
    | cons byte rest ih => rw [List.flatMap_cons, decodeBytes_encodeByte, ih]
  have decoded : (textBytes text).toByteArray.utf8Decode? = some text.toList.toArray :=
    List.utf8Decode?_utf8Encode
  rw [decodeText, encodeText, bytes, decoded]
  exact String.ofList_toList

/-- Every written character is plain and no separator. -/
theorem encodeByte_plain (byte : UInt8) :
    ∀ character ∈ encodeByte byte, character.toNat < 128 ∧ character ≠ '&' ∧ character ≠ '=' := by
  have every : ((List.range 256).all fun code =>
      (encodeByte (UInt8.ofNat code)).all fun character =>
      decide (character.toNat < 128) && decide (character ≠ '&') && decide (character ≠ '=')) =
        true := by decide +kernel
  have here := List.all_eq_true.mp every byte.toNat (List.mem_range.mpr byte.toNat_lt)
  rw [UInt8.ofNat_toNat] at here
  intro character member
  simpa [and_assoc] using List.all_eq_true.mp here character member

theorem encodeText_plain (text : String) :
    ∀ character ∈ encodeText text, character.toNat < 128 ∧ character ≠ '&' ∧ character ≠ '=' := by
  intro character member
  obtain ⟨byte, _, member⟩ := List.mem_flatMap.mp member
  exact encodeByte_plain byte character member

theorem readPair_writePair (pair : String × String) : readPair (writePair pair) = pair := by
  have named : ∀ character ∈ encodeText pair.1, decide (character ≠ '=') = true :=
    fun character member => decide_eq_true (encodeText_plain pair.1 character member).2.2
  have name : (writePair pair).takeWhile (· ≠ '=') = encodeText pair.1 := by
    rw [writePair, List.takeWhile_append_of_pos named, List.takeWhile_cons_of_neg (by decide),
      List.append_nil]
  have value : (writePair pair).dropWhile (· ≠ '=') = '=' :: encodeText pair.2 := by
    rw [writePair, List.dropWhile_append_of_pos named, List.dropWhile_cons_of_neg (by decide)]
  rw [readPair, name, value, List.drop_one, List.tail_cons, decodeText_encodeText,
    decodeText_encodeText]

theorem writePair_plain (pair : String × String) :
    ∀ character ∈ writePair pair, character.toNat < 128 ∧ character ≠ '&' := by
  intro character member
  rcases List.mem_append.mp member with member | member
  · have plain := encodeText_plain pair.1 character member
    exact ⟨plain.1, plain.2.1⟩
  · rcases List.mem_cons.mp member with rfl | member
    · decide
    · have plain := encodeText_plain pair.2 character member
      exact ⟨plain.1, plain.2.1⟩

/-- What is written is read back. -/
theorem read_write (pairs : List (String × String)) : read (write pairs) = pairs := by
  cases pairs with
  | nil => decide
  | cons first rest =>
      have pieces : (write (first :: rest)).splitOn '&' = (first :: rest).map writePair := by
        apply List.splitOn_intercalate
        · intro piece member separated
          obtain ⟨pair, _, rfl⟩ := List.mem_map.mp member
          exact (writePair_plain pair '&' separated).2 rfl
        · exact List.cons_ne_nil _ _
      have kept : ((first :: rest).map writePair).filter (fun piece => !piece.isEmpty) =
          (first :: rest).map writePair := by
        apply List.filter_eq_self.mpr
        intro piece member
        obtain ⟨pair, _, rfl⟩ := List.mem_map.mp member
        cases written : writePair pair with
        | nil => simp [writePair] at written
        | cons character rest => rfl
      rw [read, pieces, kept, List.map_map]
      exact List.map_id'' readPair_writePair _

theorem write_plain (pairs : List (String × String)) :
    ∀ character ∈ write pairs, character.toNat < 128 := by
  induction pairs with
  | nil => simp [write]
  | cons first rest ih =>
      cases rest with
      | nil =>
          rw [write, List.map_singleton, List.intercalate_singleton]
          exact fun character member => (writePair_plain first character member).1
      | cons second rest =>
          intro character member
          rw [write, List.map_cons, List.map_cons, List.intercalate_cons_cons,
            List.append_assoc] at member
          rcases List.mem_append.mp member with member | member
          · exact (writePair_plain first character member).1
          · rcases List.mem_append.mp member with member | member
            · rw [List.mem_singleton.mp member]
              decide
            · exact ih character member

end MarketingAgents.Library.UrlEncoded
