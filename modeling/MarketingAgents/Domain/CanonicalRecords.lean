import MarketingAgents.Domain.CanonicalForm

namespace MarketingAgents

/-! # Canonical records

A mapping with fixed names binds every one of its members: two of them have one
canonical text exactly when their members agree name by name.
-/

/-- Composition leaves plain text as it is. -/
def TextSupport.KeepsAscii (text : TextSupport) : Prop :=
  ∀ value : String, (∀ character ∈ value.toList, character.toNat < 128) → text.nfc value = value

section

variable {φ : Type} {text : TextSupport}

/-- A mapping whose keys are all strings. -/
def PythonValue.record (fields : List (String × PythonValue φ)) : PythonValue φ :=
  .mapping (fields.map fun field => (some field.1, field.2))

def PythonValue.strings (values : List String) : PythonValue φ := .sequence (values.map .str)

def PythonValue.optional {α : Type} (write : α → PythonValue φ) : Option α → PythonValue φ
  | none => .null
  | some value => write value

/-- Values that agree once composed. -/
def PythonValue.Agrees (text : TextSupport) (left right : PythonValue φ) : Prop :=
  (left.nfcAll text).Same (right.nfcAll text)

/-- The names of a record in plain text, each once. -/
def PlainNames (names : List String) : Prop :=
  (∀ name ∈ names, ∀ character ∈ name.toList, character.toNat < 128) ∧ names.Nodup

instance (names : List String) : Decidable (PlainNames names) :=
  decidable_of_iff ((names.all fun name => name.toList.all fun character => character.toNat < 128) =
    true ∧ names.Nodup) (by simp only [PlainNames, List.all_eq_true, decide_eq_true_eq])

theorem plain_of_all {characters : List Char}
    (all : (characters.all fun character => character.toNat < 128) = true) :
    ∀ character ∈ characters, character.toNat < 128 := by
  simpa only [List.all_eq_true, decide_eq_true_eq] using all

theorem sameMembers_forall :
    SameMembers lefts rights ↔
      ∀ member ∈ lefts, ∃ other, (member.1, other) ∈ rights ∧ member.2.Same other := by
  induction lefts with
  | nil => simp [SameMembers]
  | cons member rest ih => simp only [SameMembers, ih, List.forall_mem_cons]

theorem nfcMembers_record (keeps : text.KeepsAscii) (fields : List (String × PythonValue φ))
    (plain : ∀ name ∈ fields.map Prod.fst, ∀ character ∈ name.toList, character.toNat < 128) :
    nfcMembers text (fields.map fun field => (some field.1, field.2)) =
      fields.map fun field => (some field.1, field.2.nfcAll text) := by
  rw [nfcMembers_eq, List.map_map]
  refine List.map_congr_left fun field member => ?_
  simp only [Function.comp_apply, Option.map_some]
  rw [keeps field.1 (plain field.1 (List.mem_map_of_mem member))]

/-- Two records with the same names agree exactly when their members do. -/
theorem record_agrees (keeps : text.KeepsAscii) (plain : PlainNames names)
    {lefts rights : List (String × PythonValue φ)} (leftNames : lefts.map Prod.fst = names)
    (rightNames : rights.map Prod.fst = names) :
    (PythonValue.record lefts).Agrees text (.record rights) ↔
      List.Forall₂ (fun left right => left.2.Agrees text right.2) lefts rights := by
  have leftPlain := nfcMembers_record keeps lefts (leftNames ▸ plain.1)
  have rightPlain := nfcMembers_record keeps rights (rightNames ▸ plain.1)
  have lengths : lefts.length = rights.length := by
    have lengths := congrArg List.length (leftNames.trans rightNames.symm)
    simpa only [List.length_map] using lengths
  simp only [PythonValue.Agrees, PythonValue.record, PythonValue.nfcAll, PythonValue.Same,
    leftPlain, rightPlain,
    List.length_map, lengths, true_and, sameMembers_forall, List.forall_mem_map]
  have distinct : (rights.map Prod.fst).Nodup := rightNames ▸ plain.2
  rw [List.forall₂_iff_get]
  constructor
  · intro same
    refine ⟨lengths, fun index left right => ?_⟩
    obtain ⟨other, member, agree⟩ := same _ (List.get_mem lefts ⟨index, left⟩)
    obtain ⟨field, listed, entry⟩ := List.mem_map.mp member
    -- The member of the same name stands in the same place.
    have named : (lefts.get ⟨index, left⟩).1 = (rights.get ⟨index, right⟩).1 := by
      have names : (lefts.map Prod.fst)[index]? = (rights.map Prod.fst)[index]? := by
        rw [leftNames, rightNames]
      simpa [left, right] using names
    have same : field = rights.get ⟨index, right⟩ := by
      refine List.inj_on_of_nodup_map distinct listed (List.get_mem _ _) ?_
      exact (Option.some.inj (congrArg Prod.fst entry)).trans named
    rw [← same, show field.2.nfcAll text = other from congrArg Prod.snd entry]
    exact agree
  · rintro ⟨_, same⟩ field member
    obtain ⟨⟨index, left⟩, rfl⟩ := List.mem_iff_get.mp member
    have right : index < rights.length := lengths ▸ left
    refine ⟨(rights.get ⟨index, right⟩).2.nfcAll text,
      List.mem_map.mpr ⟨_, List.get_mem rights ⟨index, right⟩, ?_⟩, same index left right⟩
    have names : (lefts.map Prod.fst)[index]? = (rights.map Prod.fst)[index]? := by
      rw [leftNames, rightNames]
    have named : (lefts.get ⟨index, left⟩).1 = (rights.get ⟨index, right⟩).1 := by
      simpa [left, right] using names
    rw [named]

theorem record_agrees_members (keeps : text.KeepsAscii)
    {lefts rights : List (String × PythonValue φ)}
    (leftPlain : PlainNames (lefts.map Prod.fst)) (rightPlain : PlainNames (rights.map Prod.fst)) :
    (PythonValue.record lefts).Agrees text (.record rights) ↔ lefts.length = rights.length ∧
      ∀ field ∈ lefts, ∃ other ∈ rights, other.1 = field.1 ∧ field.2.Agrees text other.2 := by
  simp only [PythonValue.Agrees, PythonValue.record, PythonValue.nfcAll, PythonValue.Same,
    nfcMembers_record keeps _ leftPlain.1, nfcMembers_record keeps _ rightPlain.1, List.length_map,
      sameMembers_forall,
    List.forall_mem_map]
  refine and_congr_right fun _ => forall_congr' fun field => imp_congr_right fun _ => ?_
  constructor
  · rintro ⟨_, listed, same⟩
    obtain ⟨other, member, entry⟩ := List.mem_map.mp listed
    obtain ⟨named, rfl⟩ := Prod.mk.inj entry
    exact ⟨other, member, Option.some.inj named, same⟩
  · rintro ⟨other, member, named, same⟩
    exact ⟨_, List.mem_map.mpr ⟨other, member, by rw [named]⟩, same⟩

@[simp] theorem str_agrees :
    (PythonValue.str left : PythonValue φ).Agrees text (.str right) ↔
      text.nfc left = text.nfc right := by
  simp [PythonValue.Agrees, PythonValue.nfcAll, PythonValue.Same]

@[simp] theorem int_agrees {left right : Int} :
    (PythonValue.int left : PythonValue φ).Agrees text (.int right) ↔ left = right := by
  simp [PythonValue.Agrees, PythonValue.nfcAll, PythonValue.Same]

@[simp] theorem bool_agrees {left right : Bool} :
    (PythonValue.bool left : PythonValue φ).Agrees text (.bool right) ↔ left = right := by
  simp [PythonValue.Agrees, PythonValue.nfcAll, PythonValue.Same]

theorem sameItems_iff_forall₂ :
    SameItems lefts rights ↔ List.Forall₂ PythonValue.Same lefts rights := by
  induction lefts generalizing rights with
  | nil => cases rights <;> simp [SameItems]
  | cons left lefts ih => cases rights <;> simp [SameItems, ih]

theorem nfcItems_eq {items : List (PythonValue φ)} :
    nfcItems text items = items.map (·.nfcAll text) := by
  induction items with
  | nil => rfl
  | cons item rest ih => rw [nfcItems, ih, List.map_cons]

@[simp] theorem sequence_agrees {lefts rights : List (PythonValue φ)} :
    (PythonValue.sequence lefts).Agrees text (.sequence rights) ↔
      List.Forall₂ (fun left right => left.Agrees text right) lefts rights := by
  simp only [PythonValue.Agrees, PythonValue.nfcAll, PythonValue.Same,
    sameItems_iff_forall₂, nfcItems_eq, List.forall₂_map_left_iff, List.forall₂_map_right_iff]

@[simp] theorem strings_agree {lefts rights : List String} :
    (PythonValue.strings lefts : PythonValue φ).Agrees text (.strings rights) ↔
      lefts.map text.nfc = rights.map text.nfc := by
  simp only [PythonValue.strings, sequence_agrees, List.forall₂_map_left_iff,
    List.forall₂_map_right_iff, str_agrees]
  rw [← List.forall₂_eq_eq_eq, List.forall₂_map_left_iff, List.forall₂_map_right_iff]

end

theorem mapM_ok {α β : Type} {read : α → Except Rejection β} {members : List α} {results : List β} :
    members.mapM read = .ok results ↔
      List.Forall₂ (fun member result => read member = .ok result) members results := by
  induction members generalizing results with
  | nil => cases results <;> simp [pure_ok]
  | cons first rest ih =>
      simp only [List.mapM_cons, bind_ok, pure_ok, ih]
      constructor
      · rintro ⟨result, one, others, all, rfl⟩
        exact .cons one all
      · rintro (_ | ⟨one, all⟩)
        exact ⟨_, one, _, all, rfl⟩

theorem optional_mapM_ok {α β : Type} {read : α → Except Rejection β} {value : Option α}
    {result : Option β} :
    value.mapM read = .ok result ↔
      Option.Rel (fun present outcome => read present = .ok outcome) value result := by
  cases value with
  | none =>
      change (pure none : Except Rejection (Option β)) = .ok result ↔ _
      rw [pure_ok]
      constructor
      · rintro rfl
        exact .none
      · rintro ⟨⟩
        rfl
  | some present =>
      change some <$> read present = .ok result ↔ _
      simp only [map_eq_pure_bind, bind_ok, pure_ok]
      constructor
      · rintro ⟨value, one, rfl⟩
        exact .some one
      · rintro (one | _)
        exact ⟨_, one, rfl⟩

theorem acuteSupport_keepsAscii : acuteSupport.KeepsAscii := by
  intro value plain
  have accented : value ≠ decomposedAcute := by
    rintro rfl
    exact absurd (plain (Char.ofNat 0x301) (by decide +kernel)) (by decide +kernel)
  exact if_neg accented

end MarketingAgents
