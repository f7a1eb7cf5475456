import Mathlib

namespace MarketingAgents.Library.Keyset

/-! # Keyset pages

Reading a store page by page in the order of a key, where every page begins
behind the key of the last item seen. The store may change between two pages:
nothing is seen twice, and what stays is seen.
-/

section

variable {ι κ : Type} [LinearOrder κ] (key : ι → κ)

/-- A place from which a store is read on; the beginning is in front of every key. -/
def Behind (boundary : Option κ) (place : κ) : Prop := ∀ last ∈ boundary, last < place

instance (boundary : Option κ) (place : κ) : Decidable (Behind boundary place) :=
  match boundary with
  | none => .isTrue fun _ missing => absurd missing (by simp)
  | some last => decidable_of_iff (last < place) (by simp [Behind])

/-- The rows behind a boundary in the order of their keys. -/
def remaining (boundary : Option κ) (rows : List ι) : List ι :=
  (rows.filter fun row => Behind boundary (key row)).insertionSort fun left right =>
    key left ≤ key right

structure Page (ι κ : Type) where
  items : List ι
  next : Option κ

/-- At most so many rows, and the place of the last where there are more. -/
def page (limit : Nat) (boundary : Option κ) (rows : List ι) : Page ι κ :=
  let stored := (remaining key boundary rows).take (limit + 1)
  { items := stored.take limit
    next := if limit < stored.length then (stored.take limit).getLast?.map key else none }

/-- What is seen on the pages of successive states of the store, and whether the end was reached. -/
def walk (limit : Nat) : Option κ → List (List ι) → List ι × Bool
  | _, [] => ([], false)
  | boundary, rows :: later =>
      match (page key limit boundary rows).next with
      | none => ((page key limit boundary rows).items, true)
      | some place =>
          ((page key limit boundary rows).items ++ (walk limit (some place) later).1,
            (walk limit (some place) later).2)

end

section

variable {ι κ : Type} [LinearOrder κ] {key : ι → κ} {boundary : Option κ} {rows : List ι}
  {row : ι} {limit : Nat}

theorem mem_remaining : row ∈ remaining key boundary rows ↔
    row ∈ rows ∧ Behind boundary (key row) := by
  rw [remaining, List.mem_insertionSort, List.mem_filter, decide_eq_true_iff]

/-- Rows with different keys come in strictly growing order. -/
theorem remaining_pairwise (unique : (rows.map key).Nodup) :
    (remaining key boundary rows).Pairwise fun left right => key left < key right := by
  have sorted : (remaining key boundary rows).Pairwise fun left right => key left ≤ key right :=
    List.pairwise_insertionSort (fun left right : ι => key left ≤ key right) _
  have kept : (rows.filter fun row => Behind boundary (key row)).map key |>.Nodup :=
    List.Nodup.sublist (List.Sublist.map key List.filter_sublist) unique
  have distinct : ((remaining key boundary rows).map key).Nodup :=
    ((List.perm_insertionSort _ _).map key).nodup_iff.mpr kept
  rw [List.Nodup, List.pairwise_map] at distinct
  exact (sorted.and distinct).imp fun ⟨le, ne⟩ => lt_of_le_of_ne le ne

theorem page_items : (page key limit boundary rows).items =
    (remaining key boundary rows).take limit := by
  rw [page, List.take_take, Nat.min_eq_left (Nat.le_succ limit)]

theorem page_next : (page key limit boundary rows).next =
    if limit < (remaining key boundary rows).length then
      ((remaining key boundary rows).take limit).getLast?.map key
    else none := by
  rw [page, List.take_take, Nat.min_eq_left (Nat.le_succ limit), List.length_take]
  refine if_congr ?_ rfl rfl
  omega

/-- The next place is that of an item of the page, no item is behind it, and all
other rows are. -/
theorem page_more (unique : (rows.map key).Nodup)
    (more : (page key limit boundary rows).next = some place) :
    (∃ row ∈ (page key limit boundary rows).items, key row = place) ∧
      (∀ row ∈ (page key limit boundary rows).items, key row ≤ place) ∧
      ∀ row ∈ rows, Behind boundary (key row) → row ∈ (page key limit boundary rows).items ∨
        place < key row := by
  rw [page_next] at more
  rw [page_items]
  split at more
  · obtain ⟨last, found, rfl⟩ := Option.map_eq_some_iff.mp more
    obtain ⟨front, split⟩ := List.getLast?_eq_some_iff.mp found
    have ordered : (remaining key boundary rows).Pairwise fun left right => key left < key right :=
      remaining_pairwise unique
    rw [← List.take_append_drop limit (remaining key boundary rows),
      List.pairwise_append] at ordered
    obtain ⟨inside, _, across⟩ := ordered
    have listed : last ∈ (remaining key boundary rows).take limit := List.mem_of_getLast? found
    refine ⟨⟨last, listed, rfl⟩, fun row member => ?_, fun row member behind => ?_⟩
    · rw [split, List.pairwise_append] at inside
      rw [split, List.mem_append, List.mem_singleton] at member
      rcases member with earlier | rfl
      · exact le_of_lt (inside.2.2 row earlier last (List.mem_singleton_self last))
      · exact le_rfl
    · have kept : row ∈ remaining key boundary rows := mem_remaining.mpr ⟨member, behind⟩
      rw [← List.take_append_drop limit (remaining key boundary rows), List.mem_append] at kept
      exact kept.imp id fun later => across last listed row later
  · cases more

theorem page_behind (member : row ∈ (page key limit boundary rows).items) :
    row ∈ rows ∧ Behind boundary (key row) := by
  rw [page_items] at member
  exact mem_remaining.mp (List.mem_of_mem_take member)

end

section

variable {ι κ : Type} [LinearOrder κ] {key : ι → κ} {boundary : Option κ} {states : List (List ι)}
  {row : ι} {limit : Nat}

theorem Behind.trans {place later : κ} (behind : Behind boundary place) (further : place ≤ later) :
    Behind boundary later :=
  fun last known => lt_of_lt_of_le (behind last known) further

/-- What is left behind the last key of a page. -/
theorem remaining_next (rows : List ι) (unique : (rows.map key).Nodup)
    (more : (page key limit boundary rows).next = some place) :
    remaining key (some place) rows = (remaining key boundary rows).drop limit := by
  obtain ⟨⟨last, onPage, atPlace⟩, bounded, covered⟩ := page_more unique more
  have ordered : (remaining key boundary rows).Pairwise fun left right => key left < key right :=
    remaining_pairwise unique
  have parts := ordered
  rw [← List.take_append_drop limit (remaining key boundary rows), List.pairwise_append] at parts
  refine List.Perm.eq_of_pairwise (fun _ _ _ _ before after =>
    absurd (before.trans after) (lt_irrefl _)) (remaining_pairwise unique) parts.2.1 ?_
  have nodup : (remaining key (some place) rows).Nodup :=
    (remaining_pairwise unique).imp fun before same => absurd (same ▸ before) (lt_irrefl _)
  have nodupDrop : ((remaining key boundary rows).drop limit).Nodup :=
    parts.2.1.imp fun before same => absurd (same ▸ before) (lt_irrefl _)
  refine (List.perm_ext_iff_of_nodup nodup nodupDrop).mpr fun row => ?_
  rw [mem_remaining]
  constructor
  · rintro ⟨known, behind⟩
    have beyond : place < key row := behind place rfl
    have kept : row ∈ remaining key boundary rows :=
      mem_remaining.mpr ⟨known, (page_behind onPage).2.trans (atPlace ▸ le_of_lt beyond)⟩
    rw [← List.take_append_drop limit (remaining key boundary rows), List.mem_append,
      ← page_items] at kept
    exact kept.resolve_left fun listed => absurd (bounded row listed) (not_le_of_gt beyond)
  · intro later
    have kept := mem_remaining.mp (List.mem_of_mem_drop later)
    refine ⟨kept.1, ?_⟩
    rintro _ ⟨⟩
    rw [page_items] at onPage
    exact atPlace ▸ parts.2.2 last onPage row later

end

end MarketingAgents.Library.Keyset
