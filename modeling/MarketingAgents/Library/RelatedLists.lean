import Mathlib.Data.List.Forall2
import Mathlib.Data.List.Sort

namespace MarketingAgents.Library

/-! # Lists that are related element by element -/

variable {α β γ δ : Type} {related : α → β → Prop} {left : List α} {right : List β}

theorem exists_related {second : β} (all : List.Forall₂ related left right)
    (member : second ∈ right) :
    ∃ first ∈ left, related first second := by
  induction all with
  | nil => cases member
  | cons holds _ ih =>
      rcases List.mem_cons.mp member with rfl | later
      · exact ⟨_, by simp, holds⟩
      · obtain ⟨first, listed, related⟩ := ih later
        exact ⟨first, List.mem_cons_of_mem _ listed, related⟩

/-- Relations that agree on the elements of two lists relate the lists alike. -/
theorem related_congr {other : α → β → Prop}
    (agree : ∀ first ∈ left, ∀ second ∈ right, related first second ↔ other first second) :
    List.Forall₂ related left right ↔ List.Forall₂ other left right := by
  induction left generalizing right with
  | nil => cases right <;> simp
  | cons first firsts ih =>
      cases right with
      | nil => simp
      | cons second seconds =>
          rw [List.forall₂_cons, List.forall₂_cons, agree first (by simp) second (by simp)]
          refine and_congr_right fun _ => ih fun one inFirsts two inSeconds => ?_
          exact agree one (List.mem_cons_of_mem _ inFirsts) two (List.mem_cons_of_mem _ inSeconds)

/-- Where each element is related to some element, the list is related to some list. -/
theorem exists_related_list (each : ∀ first ∈ left, ∃ second, related first second) :
    ∃ seconds, List.Forall₂ related left seconds := by
  induction left with
  | nil => exact ⟨[], .nil⟩
  | cons first rest ih =>
      obtain ⟨⟨second, holds⟩, others⟩ := List.forall_mem_cons.mp each
      obtain ⟨seconds, all⟩ := ih others
      exact ⟨second :: seconds, .cons holds all⟩

theorem map_eq_of_related {view : α → γ} {other : β → γ} (all : List.Forall₂ related left right)
    (agree : ∀ {first second}, related first second → view first = other second) :
    left.map view = right.map other := by
  induction all with
  | nil => rfl
  | cons holds _ ih => rw [List.map_cons, List.map_cons, agree holds, ih]

theorem related_filter {test : α → Bool} {other : β → Bool} (all : List.Forall₂ related left right)
    (agree : ∀ {first second}, related first second → test first = other second) :
    List.Forall₂ related (left.filter test) (right.filter other) :=
  List.rel_filter (fun _ _ holds => by simp [agree holds]) all

/-- What holds of the elements of one list carries over to the related elements of another. -/
theorem related_transfer {before : α → δ → Prop} {after : β → δ → Prop}
    (all : List.Forall₂ related left right) (holds : List.Forall₂ before left values)
    (carried : ∀ first ∈ left, ∀ second, ∀ value ∈ values, related first second →
      before first value →
      after second value) : List.Forall₂ after right values := by
  induction all generalizing values with
  | nil =>
      cases holds
      exact .nil
  | cons same _ ih =>
      cases holds with
      | cons first rest =>
          refine .cons (carried _ (by simp) _ _ (by simp) same first) (ih rest ?_)
          intro old listed new value known
          exact carried old (List.mem_cons_of_mem _ listed) new value (List.mem_cons_of_mem _ known)

/-- Among elements with distinct keys, the ones with a given key are one. -/
theorem filter_key_eq_singleton {key : α → γ} [DecidableEq γ] {entry : α}
    (distinct : (left.map key).Nodup) (member : entry ∈ left) :
    left.filter (key · = key entry) = [entry] := by
  induction left with
  | nil => cases member
  | cons first rest ih =>
      simp only [List.map_cons, List.nodup_cons] at distinct
      rcases List.mem_cons.mp member with rfl | later
      · have others : rest.filter (key · = key entry) = [] := by
          rw [List.filter_eq_nil_iff]
          intro other listed same
          have equal : key other = key entry := by simpa using same
          exact distinct.1 (equal ▸ List.mem_map_of_mem listed)
        simp [others]
      · have differs : key first ≠ key entry := by
          intro same
          exact distinct.1 (same ▸ List.mem_map_of_mem later)
        rw [List.filter_cons_of_neg (by simpa using differs)]
        exact ih distinct.2 later

/-- Among elements with distinct keys, the first one with a given key is the only one. -/
theorem find?_key {key : α → γ} [DecidableEq γ] {entry : α} (distinct : (left.map key).Nodup)
    (member : entry ∈ left) : left.find? (key · = key entry) = some entry := by
  rw [← List.head?_filter, filter_key_eq_singleton distinct member]
  rfl

theorem exists_related_right {first : α} (all : List.Forall₂ related left right)
    (member : first ∈ left) :
    ∃ second ∈ right, related first second := by
  obtain ⟨second, listed, holds⟩ := exists_related all.flip member
  exact ⟨second, listed, holds⟩

/-- Two arrangements of one list are sorted alike by an order that tells its elements apart. -/
theorem insertionSort_eq_of_perm
    {order : α → α → Prop} [DecidableRel order] [Std.Total order] [IsTrans α order]
    (apart : ∀ first ∈ left, ∀ second ∈ left, order first second → order second first →
      first = second)
    (perm : left.Perm other) : left.insertionSort order = other.insertionSort order := by
  have sorted := List.perm_insertionSort order left
  refine List.Perm.eq_of_pairwise ?_ (List.pairwise_insertionSort order left)
    (List.pairwise_insertionSort order other)
    (sorted.trans (perm.trans (List.perm_insertionSort order other).symm))
  intro first second inLeft inOther before after
  have member := perm.symm.subset ((List.perm_insertionSort order other).subset inOther)
  exact apart first (sorted.subset inLeft) second member before after

end MarketingAgents.Library
