import Mathlib.Data.List.Nodup
import MarketingAgents.Library.RelatedLists

namespace MarketingAgents.Library

/-- Rows under a primary key.  The key column is stored beside each row, so
updates cannot change it and the constraint travels with the table. -/
structure Table (κ ρ : Type) where
  entries : List (κ × ρ)
  nodup : (entries.map Prod.fst).Nodup
deriving DecidableEq

namespace Table

variable {κ ρ : Type} [DecidableEq κ] {table : Table κ ρ} {key other : κ} {row found : ρ}

def empty : Table κ ρ := ⟨[], List.nodup_nil⟩

def get? (table : Table κ ρ) (key : κ) : Option ρ :=
  (table.entries.find? (·.1 = key)).map Prod.snd

def keys (table : Table κ ρ) : List κ := table.entries.map Prod.fst

def rows (table : Table κ ρ) : List ρ := table.entries.map Prod.snd

/-- Replace every row by a function of its key and old contents. -/
def mapRows (table : Table κ ρ) (change : κ → ρ → ρ) : Table κ ρ where
  entries := table.entries.map fun entry => (entry.1, change entry.1 entry.2)
  nodup := by simpa [List.map_map, Function.comp_def] using table.nodup

/-- A table with the same keys and rows of another kind. -/
def mapKeyed {σ : Type} (table : Table κ ρ) (view : κ → ρ → σ) : Table κ σ where
  entries := table.entries.map fun entry => (entry.1, view entry.1 entry.2)
  nodup := by simpa [List.map_map, Function.comp_def] using table.nodup

/-- Leave out the rows that a test refuses. -/
def filter (table : Table κ ρ) (keep : κ → ρ → Bool) : Table κ ρ where
  entries := table.entries.filter fun entry => keep entry.1 entry.2
  nodup := table.nodup.sublist (List.filter_sublist.map _)

/-- Update the row of one key, leaving the table alone when the key is absent. -/
def modify (table : Table κ ρ) (key : κ) (change : ρ → ρ) : Table κ ρ :=
  table.mapRows fun current row => if current = key then change row else row

def set (table : Table κ ρ) (key : κ) (row : ρ) : Table κ ρ :=
  table.modify key fun _ => row

/-- Insertion under the primary-key constraint. -/
def insert? (table : Table κ ρ) (key : κ) (row : ρ) : Option (Table κ ρ) :=
  if fresh : key ∉ table.keys then
    some {
      entries := table.entries ++ [(key, row)]
      nodup := by
        have distinct : (table.keys ++ [key]).Nodup :=
          List.nodup_append.mpr ⟨table.nodup, List.nodup_singleton key, by
            intro left member right single same
            exact fresh (by rwa [← List.mem_singleton.mp single, ← same])⟩
        simpa [keys] using distinct }
  else none

/-- Update the row of a key or insert it. -/
def put (table : Table κ ρ) (key : κ) (row : ρ) : Table κ ρ :=
  (table.insert? key row).getD (table.set key row)

/-- The rows of a table under the rows that another one puts over them. -/
def overlay (table upper : Table κ ρ) : Table κ ρ :=
  upper.entries.foldl (fun written entry => written.put entry.1 entry.2) table

def count (table : Table κ ρ) (test : κ → ρ → Bool) : Nat :=
  table.entries.countP fun entry => test entry.1 entry.2

@[simp] theorem empty_get? : (empty : Table κ ρ).get? key = none := rfl

omit [DecidableEq κ] in
@[simp] theorem keys_mapRows (change : κ → ρ → ρ) : (table.mapRows change).keys = table.keys := by
  simp [keys, mapRows, Function.comp_def]

@[simp] theorem keys_set : (table.set key row).keys = table.keys := keys_mapRows _

theorem mem_entries_of_get? (found : table.get? key = some row) : (key, row) ∈ table.entries := by
  simp only [get?, Option.map_eq_some_iff] at found
  obtain ⟨entry, located, rfl⟩ := found
  have matched : entry.1 = key := by simpa using List.find?_some located
  subst matched
  exact List.mem_of_find?_eq_some located

private theorem find?_of_nodup {entries : List (κ × ρ)} (distinct : (entries.map Prod.fst).Nodup)
    (member : (key, row) ∈ entries) : entries.find? (·.1 = key) = some (key, row) := by
  induction entries with
  | nil => simp at member
  | cons entry rest ih =>
      simp only [List.map_cons, List.nodup_cons, List.mem_map] at distinct
      rcases List.mem_cons.mp member with rfl | later
      · simp
      · have differs : entry.1 ≠ key := fun same => distinct.1 ⟨_, later, same.symm⟩
        rw [List.find?_cons_of_neg (by simpa using differs)]
        exact ih distinct.2 later

theorem get?_eq_some_iff : table.get? key = some row ↔ (key, row) ∈ table.entries := by
  constructor
  · exact mem_entries_of_get?
  · intro member
    simp [get?, find?_of_nodup table.nodup member]

theorem mem_rows_iff : row ∈ table.rows ↔ ∃ key, table.get? key = some row := by
  simp [rows, get?_eq_some_iff]

theorem mem_rows_of_get? (found : table.get? key = some row) : row ∈ table.rows :=
  mem_rows_iff.mpr ⟨key, found⟩

theorem mem_keys_iff : key ∈ table.keys ↔ ∃ row, table.get? key = some row := by
  simp [keys, get?_eq_some_iff]

@[simp] theorem get?_mapRows (change : κ → ρ → ρ) :
    (table.mapRows change).get? key = (table.get? key).map (change key) := by
  have matched : ((fun entry : κ × ρ => decide (entry.1 = key)) ∘
      fun entry : κ × ρ => (entry.1, change entry.1 entry.2)) = fun entry =>
        decide (entry.1 = key) := rfl
  simp only [get?, mapRows, List.find?_map, matched, Option.map_map]
  cases located : table.entries.find? (·.1 = key) with
  | none => rfl
  | some entry =>
      have same : entry.1 = key := by simpa using List.find?_some located
      simp [same]

theorem get?_filter {keep : κ → ρ → Bool} :
    (table.filter keep).get? key = (table.get? key).filter (keep key) := by
  ext row
  rw [get?_eq_some_iff, Option.filter_eq_some_iff, get?_eq_some_iff]
  simp [filter, List.mem_filter]

@[simp] theorem get?_modify_self (change : ρ → ρ) :
    (table.modify key change).get? key = (table.get? key).map change := by
  simp [modify]

theorem get?_modify_ne (change : ρ → ρ) (differs : other ≠ key) :
    (table.modify key change).get? other = table.get? other := by
  cases lookup : table.get? other <;> simp [modify, differs, lookup]

theorem get?_modify (change : ρ → ρ) :
    (table.modify key change).get? other =
      if other = key then (table.get? key).map change else table.get? other := by
  by_cases same : other = key
  · subst same; simp
  · simp [same, get?_modify_ne change same]

theorem get?_set_self (present : table.get? key = some found) :
    (table.set key row).get? key = some row := by
  simp [set, present]

theorem get?_set_ne (differs : other ≠ key) : (table.set key row).get? other = table.get? other :=
  get?_modify_ne _ differs

theorem get?_set (present : table.get? key = some found) :
    (table.set key row).get? other = if other = key then some row else table.get? other := by
  by_cases same : other = key
  · rw [if_pos same, same, get?_set_self present]
  · rw [if_neg same, get?_set_ne same]

@[simp] theorem set_set : (table.set key row).set key later = table.set key later := by
  simp only [set, modify, mapRows, List.map_map, mk.injEq]
  apply List.map_congr_left
  intro entry _
  by_cases same : entry.1 = key <;> simp [same]

theorem get?_insert (inserted : table.insert? key row = some after) :
    table.get? key = none ∧
      ∀ other, after.get? other = if other = key then some row else table.get? other := by
  unfold insert? at inserted
  split at inserted
  · rename_i fresh
    cases inserted
    have absent : table.get? key = none := by
      rcases lookup : table.get? key with _ | row
      · rfl
      · exact absurd (mem_keys_iff.mpr ⟨row, lookup⟩) fresh
    refine ⟨absent, fun other => ?_⟩
    by_cases same : other = key
    · subst same
      simp only [get?, List.find?_append] at absent ⊢
      simp only [Option.map_eq_none_iff] at absent
      simp [absent]
    · have differs : ¬ key = other := fun equal => same equal.symm
      simp [get?, List.find?_append, same, differs]
  · cases inserted

theorem insert?_eq_none : table.insert? key row = none ↔ ∃ found, table.get? key = some found := by
  rw [← mem_keys_iff]
  unfold insert?
  split <;> simp_all

theorem get?_put : (table.put key row).get? other = if other = key then some row
    else table.get? other := by
  unfold put
  cases inserted : table.insert? key row with
  | some after => simpa using (get?_insert inserted).2 other
  | none =>
      obtain ⟨found, present⟩ := insert?_eq_none.mp inserted
      simp [set, get?_modify, present]

theorem get?_overlay :
    (table.overlay upper).get? key = (upper.get? key).or (table.get? key) := by
  obtain ⟨entries, distinct⟩ := upper
  simp only [overlay, get?]
  induction entries generalizing table with
  | nil => simp
  | cons entry rest ih =>
      simp only [List.map_cons, List.nodup_cons] at distinct
      rw [List.foldl_cons]
      refine (ih distinct.2).trans ?_
      have written : ((table.put entry.1 entry.2).entries.find? (·.1 = key)).map Prod.snd =
          if key = entry.1 then some entry.2 else (table.entries.find? (·.1 = key)).map Prod.snd :=
        get?_put
      rw [written]
      by_cases same : entry.1 = key
      · subst same
        have absent : rest.find? (·.1 = entry.1) = none := by
          rw [List.find?_eq_none]
          intro other member equal
          exact distinct.1 (List.mem_map.mpr ⟨other, member, by simpa using equal⟩)
        simp [absent]
      · have differs : ¬ key = entry.1 := fun equal => same equal.symm
        simp [same, differs]

section Related

variable {before middle after : Table κ ρ} {relation : ρ → ρ → Prop}

/-- Two tables with the same keys whose rows are related one by one. -/
structure Related (relation : ρ → ρ → Prop) (before after : Table κ ρ) : Prop where
  keys : after.keys = before.keys
  rows : ∀ key row, before.get? key = some row → ∃ updated, after.get? key = some updated ∧
    relation row updated

namespace Related

theorem refl (reflexive : ∀ row, relation row row) (table : Table κ ρ) :
    Related relation table table :=
  ⟨rfl, fun _ row found => ⟨row, found, reflexive row⟩⟩

theorem trans (transitive : ∀ {first second third}, relation first second → relation second third →
    relation first third) (left : Related relation before middle)
    (right : Related relation middle after) : Related relation before after := by
  refine ⟨right.keys.trans left.keys, fun key row found => ?_⟩
  obtain ⟨between, lookup, first⟩ := left.rows key row found
  obtain ⟨updated, located, second⟩ := right.rows key between lookup
  exact ⟨updated, located, transitive first second⟩

theorem of_set (reflexive : ∀ row, relation row row) (found : before.get? key = some row)
    (changed : relation row updated) : Related relation before (before.set key updated) := by
  refine ⟨keys_set, fun other old lookup => ?_⟩
  rw [get?_set found]
  by_cases same : other = key
  · subst same
    rw [if_pos rfl]
    obtain rfl := Option.mem_unique found lookup
    exact ⟨updated, rfl, changed⟩
  · rw [if_neg same]
    exact ⟨old, lookup, reflexive old⟩

/-- A row of the later table comes from a row of the earlier one. -/
theorem source (related : Related relation before after) (found : after.get? key = some updated) :
    ∃ row, before.get? key = some row ∧ relation row updated := by
  have listed : key ∈ before.keys := by
    rw [← related.keys]
    exact mem_keys_iff.mpr ⟨updated, found⟩
  obtain ⟨row, lookup⟩ := mem_keys_iff.mp listed
  obtain ⟨again, located, holds⟩ := related.rows key row lookup
  obtain rfl := Option.mem_unique found located
  exact ⟨row, lookup, holds⟩

/-- The entries of related tables correspond in their order. -/
theorem entries (related : Related relation before after) :
    List.Forall₂ (fun old new => old.1 = new.1 ∧ relation old.2 new.2) before.entries
      after.entries := by
  have listed : ∀ table : Table κ ρ,
      table.entries = table.keys.filterMap fun key => (table.get? key).map fun row =>
          (key, row) := by
    intro table
    have same : ∀ entry ∈ table.entries,
        (table.get? entry.1).map (fun row => (entry.1, row)) = some entry := by
      intro entry member
      simp [get?_eq_some_iff.mpr (show (entry.1, entry.2) ∈ table.entries from member)]
    show _ = (table.entries.map Prod.fst).filterMap _
    rw [List.filterMap_map]
    exact (List.filterMap_some.symm.trans (List.filterMap_congr same).symm)
  rw [listed before, listed after, related.keys]
  have sameKeys : List.Forall₂ (· = ·) before.keys before.keys := by rw [List.forall₂_eq_eq_eq]
  refine List.rel_filterMap ?_ sameKeys
  rintro key _ rfl
  show Option.Rel _ ((before.get? key).map _) ((after.get? key).map _)
  cases found : before.get? key with
  | none =>
      have absent : after.get? key = none := by
        cases lookup : after.get? key with
        | none => rfl
        | some updated =>
            obtain ⟨row, located, _⟩ := related.source lookup
            cases found.symm.trans located
      rw [absent]
      exact .none
  | some row =>
      obtain ⟨updated, lookup, holds⟩ := related.rows key row found
      rw [lookup]
      exact .some ⟨rfl, holds⟩

end Related

/-- Two tables with the same keys whose rows agree on a field. -/
structure Keeps {φ : Type} (field : ρ → φ) (before after : Table κ ρ) : Prop
    extends Related (fun row updated => field updated = field row) before after

namespace Keeps

variable {φ : Type} {field : ρ → φ}

theorem refl (table : Table κ ρ) : Keeps field table table :=
  ⟨⟨rfl, fun _ row found => ⟨row, found, rfl⟩⟩⟩

theorem of_eq (same : after = before) : Keeps field before after := by
  rw [same]
  exact .refl before

theorem trans (left : Keeps field before middle) (right : Keeps field middle after) :
    Keeps field before after :=
  ⟨.trans (fun first second => second.trans first) left.toRelated right.toRelated⟩

theorem of_set (found : before.get? key = some row) (same : field updated = field row) :
    Keeps field before (before.set key updated) := by
  have reflexive : ∀ row : ρ, field row = field row := fun _ => rfl
  exact ⟨.of_set reflexive found same⟩

end Keeps

end Related

section Count

variable {test : κ → ρ → Bool}

private theorem countP_modify {entries : List (κ × ρ)} (distinct : (entries.map Prod.fst).Nodup)
    (member : (key, row) ∈ entries) (change : ρ → ρ) :
    (entries.map fun entry => (entry.1, if entry.1 = key then change entry.2 else entry.2)).countP
        (fun entry => test entry.1 entry.2) + (if test key row then 1 else 0) =
      entries.countP (fun entry => test entry.1 entry.2) +
        (if test key (change row) then 1 else 0) := by
  induction entries with
  | nil => simp at member
  | cons entry rest ih =>
      simp only [List.map_cons, List.nodup_cons, List.mem_map] at distinct
      rcases List.mem_cons.mp member with rfl | later
      · have untouched : rest.map (fun entry =>
            (entry.1, if entry.1 = key then change entry.2 else entry.2)) = rest := by
          rw [List.map_congr_left (g := id), List.map_id]
          intro entry listed
          have differs : entry.1 ≠ key := fun same => distinct.1 ⟨entry, listed, same⟩
          simp [differs]
        simp only [List.map_cons, if_true, untouched, List.countP_cons]
        omega
      · have differs : entry.1 ≠ key := fun same => distinct.1 ⟨_, later, same.symm⟩
        have rest := ih distinct.2 later
        simp only [List.map_cons, if_neg differs, List.countP_cons]
        omega

/-- An update of one row changes a count by what it changes for that row. -/
theorem count_modify (test : κ → ρ → Bool) (present : table.get? key = some row) (change : ρ → ρ) :
    (table.modify key change).count test + (if test key row then 1 else 0) =
      table.count test + (if test key (change row) then 1 else 0) :=
  countP_modify table.nodup (mem_entries_of_get? present) change

theorem count_set (test : κ → ρ → Bool) (row : ρ) (present : table.get? key = some found) :
    (table.set key row).count test + (if test key found then 1 else 0) =
      table.count test + (if test key row then 1 else 0) :=
  count_modify test present _

/-- Tables with the same keys in the same order agree on a count their rows agree on. -/
theorem count_congr {left right : Table κ ρ} (keys : left.keys = right.keys)
    (agree : ∀ key before after, left.get? key = some before → right.get? key = some after →
      test key before = test key after) : left.count test = right.count test := by
  have rowsOf : ∀ table : Table κ ρ, table.count test =
      table.keys.countP fun key => (table.get? key).any (test key) := by
    intro table
    simp only [count, Table.keys, List.countP_map]
    apply List.countP_congr
    intro entry member
    simp [get?_eq_some_iff.mpr (show (entry.1, entry.2) ∈ table.entries from member)]
  rw [rowsOf, rowsOf, keys]
  apply List.countP_congr
  intro key member
  obtain ⟨after, right⟩ := mem_keys_iff.mp member
  obtain ⟨before, left⟩ := mem_keys_iff.mp (keys ▸ member)
  simp [left, right, agree key before after left right]

/-- The keys whose rows pass a test. -/
def keysWhere (table : Table κ ρ) (test : κ → ρ → Bool) : List κ :=
  (table.entries.filter fun entry => test entry.1 entry.2).map Prod.fst

omit [DecidableEq κ] in
theorem length_keysWhere : (table.keysWhere test).length = table.count test := by
  simp [keysWhere, count, List.countP_eq_length_filter]

omit [DecidableEq κ] in
theorem nodup_keysWhere : (table.keysWhere test).Nodup :=
  table.nodup.sublist (List.filter_sublist.map _)

theorem mem_keysWhere : key ∈ table.keysWhere test ↔ ∃ row, table.get? key = some row ∧
    test key row := by
  simp only [keysWhere, List.mem_map, List.mem_filter, get?_eq_some_iff]
  constructor
  · rintro ⟨⟨same, row⟩, ⟨member, passes⟩, rfl⟩
    exact ⟨row, member, passes⟩
  · rintro ⟨row, member, passes⟩
    exact ⟨(key, row), ⟨member, passes⟩, rfl⟩

end Count

end Table

end MarketingAgents.Library
