import Mathlib.Data.List.Nodup
import Mathlib.Data.List.Sort

namespace MarketingAgents.Library

/-! # Lists whose elements carry consecutive numbers

A log numbers its entries in the order they are appended.  A cursor is the
number of an entry; what a page holds is cut out of the list at the cursor.
-/

variable {α : Type} {position : α → Nat} {first : Nat} {items front back : List α}

/-- The elements carry the numbers from a first one on, in order. -/
def Numbered (position : α → Nat) (first : Nat) (items : List α) : Prop :=
  items.map position = List.range' first items.length

namespace Numbered

theorem nil : Numbered position first [] := rfl

theorem append_iff : Numbered position first (front ++ back) ↔
    Numbered position first front ∧ Numbered position (first + front.length) back := by
  unfold Numbered
  rw [List.map_append, List.length_append, ← List.range'_append_1]
  constructor
  · intro same
    exact List.append_inj same (by simp)
  · rintro ⟨left, right⟩
    rw [left, right]

theorem cons_iff {item : α} : Numbered position first (item :: items) ↔
    position item = first ∧ Numbered position (first + 1) items := by
  unfold Numbered
  rw [List.map_cons, List.length_cons, List.range'_succ, List.cons.injEq]

theorem map_iff {β : Type} {view : β → α} {others : List β} :
    Numbered position first (others.map view) ↔
      Numbered (fun other => position (view other)) first others := by
  unfold Numbered
  rw [List.map_map, List.length_map]
  rfl

theorem bounds {item : α} (numbered : Numbered position first items) (member : item ∈ items) :
    first ≤ position item ∧ position item < first + items.length := by
  have listed : position item ∈ List.range' first items.length := by
    rw [← numbered]
    exact List.mem_map_of_mem member
  simpa using listed

theorem ascending (numbered : Numbered position first items) :
    items.Pairwise fun left right => position left < position right := by
  have sorted : (items.map position).Pairwise (· < ·) := by
    rw [numbered]
    exact List.pairwise_lt_range'
  exact List.pairwise_map.mp sorted

theorem sublist_of_filter {test : α → Bool} (numbered : Numbered position first items) :
    (items.filter test).Pairwise fun left right => position left < position right :=
  numbered.ascending.sublist List.filter_sublist

/-- The elements up to a number are a prefix. -/
theorem filter_le (numbered : Numbered position first items) (bound : Nat) :
    items.filter (fun item => position item ≤ bound) = items.take (bound + 1 - first) := by
  induction items generalizing first with
  | nil => simp
  | cons item rest ih =>
      obtain ⟨here, later⟩ := cons_iff.mp numbered
      by_cases inside : first ≤ bound
      · have more : bound + 1 - first = (bound + 1 - (first + 1)) + 1 := by omega
        rw [List.filter_cons_of_pos (by simpa [here] using inside), ih later, more,
          List.take_succ_cons]
      · have none : bound + 1 - first = 0 := by omega
        rw [none, List.take_zero, List.filter_eq_nil_iff]
        intro other member within
        have bounds := numbered.bounds member
        have small : position other ≤ bound := by simpa using within
        omega

/-- The elements after a number are a suffix. -/
theorem filter_gt (numbered : Numbered position first items) (bound : Nat) :
    items.filter (fun item => bound < position item) = items.drop (bound + 1 - first) := by
  induction items generalizing first with
  | nil => simp
  | cons item rest ih =>
      obtain ⟨here, later⟩ := cons_iff.mp numbered
      by_cases before : first ≤ bound
      · have more : bound + 1 - first = (bound + 1 - (first + 1)) + 1 := by omega
        rw [List.filter_cons_of_neg (by simpa [here] using before), ih later, more,
          List.drop_succ_cons]
      · have none : bound + 1 - first = 0 := by omega
        rw [none, List.drop_zero, List.filter_eq_self]
        intro other member
        have bounds := numbered.bounds member
        simp only [decide_eq_true_eq]
        omega

theorem take (numbered : Numbered position first items) (count : Nat) :
    Numbered position first (items.take count) := by
  rw [← List.take_append_drop count items] at numbered
  exact (append_iff.mp numbered).1

theorem drop {count : Nat} (numbered : Numbered position first items)
    (inside : count ≤ items.length) :
    Numbered position (first + count) (items.drop count) := by
  rw [← List.take_append_drop count items] at numbered
  simpa [Nat.min_eq_left inside] using (append_iff.mp numbered).2

end Numbered

/-- In a descending list, what follows a page are the elements below its last one. -/
theorem filter_below_last
    (descending : (front ++ back).Pairwise fun left right => position right < position left)
    (ends : front.getLast? = some last) :
    (front ++ back).filter (fun item => position item < position last) = back := by
  obtain ⟨before, rfl⟩ := List.getLast?_eq_some_iff.mp ends
  rw [List.pairwise_append] at descending
  obtain ⟨ordered, _, across⟩ := descending
  rw [List.pairwise_append] at ordered
  have above : (before ++ [last]).filter (fun item => position item < position last) = [] := by
    rw [List.filter_eq_nil_iff]
    intro item member
    simp only [decide_eq_true_eq, Nat.not_lt]
    rcases List.mem_append.mp member with earlier | here
    · exact Nat.le_of_lt (ordered.2.2 item earlier last (by simp))
    · rw [List.mem_singleton.mp here]
  have below : back.filter (fun item => position item < position last) = back := by
    rw [List.filter_eq_self]
    intro item member
    simpa using across last (by simp) item member
  rw [List.filter_append, above, below, List.nil_append]

theorem orderedInsert_last {relation : α → α → Prop} [DecidableRel relation]
    (below : ∀ other ∈ items, ¬ relation item other) :
    items.orderedInsert relation item = items ++ [item] := by
  induction items with
  | nil => rfl
  | cons other rest ih =>
      rw [List.orderedInsert_cons, if_neg (below other (by simp)),
        ih fun later member => below later (by simp [member]), List.cons_append]

/-- Sorting an ascending list the other way reverses it. -/
theorem insertionSort_ascending
    (ascending : items.Pairwise fun left right => position left < position right) :
    items.insertionSort (fun left right => position right ≤ position left) = items.reverse := by
  induction items with
  | nil => rfl
  | cons item rest ih =>
      obtain ⟨least, later⟩ := List.pairwise_cons.mp ascending
      rw [List.insertionSort_cons, ih later, List.reverse_cons]
      refine orderedInsert_last fun other member => ?_
      have above := least other (List.mem_reverse.mp member)
      omega

theorem min?_range' {count : Nat} : (List.range' first (count + 1)).min? = some first := by
  rw [List.min?_eq_some_iff]
  refine ⟨by simp, ?_⟩
  intro number member
  simp only [List.mem_range'_1] at member
  exact member.1

theorem max?_range' {count : Nat} : (List.range' first (count + 1)).max? =
    some (first + count) := by
  rw [List.max?_eq_some_iff]
  refine ⟨by simp, ?_⟩
  intro number member
  simp only [List.mem_range'_1] at member
  omega

end MarketingAgents.Library
