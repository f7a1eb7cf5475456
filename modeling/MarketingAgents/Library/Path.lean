import Mathlib.Data.List.Chain
import MarketingAgents.Library.Numbered

namespace MarketingAgents.Library

/-! # Paths of records between states

A history is the list of the records along a path.  It is complete when every
change of state has left its record, in order.
-/

variable {σ ρ : Type} {moves : σ → ρ → σ → Prop} {first middle last : σ}
variable {record : ρ} {records front back : List ρ}

/-- The records lead from one state to another, one move each. -/
inductive Path (moves : σ → ρ → σ → Prop) : σ → List ρ → σ → Prop where
  | nil {state : σ} : Path moves state [] state
  | cons {first middle last : σ} {record : ρ} {records : List ρ} (move : moves first record middle)
      (rest : Path moves middle records last) : Path moves first (record :: records) last

namespace Path

theorem single (move : moves first record last) : Path moves first [record] last :=
  .cons move .nil

theorem append (before : Path moves first front middle) (after : Path moves middle back last) :
    Path moves first (front ++ back) last := by
  induction before with
  | nil => exact after
  | cons move _ ih => exact .cons move (ih after)

/-- A quantity that grows by one with every move numbers the records. -/
theorem numbered (position : ρ → Nat) (count : σ → Nat) (path : Path moves first records last)
    (counts : ∀ {before record after}, moves before record after →
      position record = count before + 1 ∧ count after = position record) :
    Numbered position (count first + 1) records ∧ count last = count first + records.length := by
  induction path with
  | nil => exact ⟨Numbered.nil, rfl⟩
  | cons move _ ih =>
      obtain ⟨here, next⟩ := counts move
      rw [next, here] at ih
      refine ⟨Numbered.cons_iff.mpr ⟨here, ih.1⟩, ?_⟩
      rw [ih.2, List.length_cons]
      omega

/-- What a move reads of the state before it and leaves of the state after it links neighbours. -/
theorem linked {τ : Type} (view : σ → τ) (source target : ρ → τ)
    (path : Path moves first records last)
    (views : ∀ {before record after}, moves before record after →
      source record = view before ∧ view after = target record) :
    records.IsChain fun earlier later => source later = target earlier := by
  induction path with
  | nil => exact .nil
  | cons move rest ih =>
      cases rest with
      | nil => exact .singleton _
      | cons next _ =>
          refine .cons_cons ?_ ih
          rw [(views next).1, (views move).2]

/-- The last record of a path leaves its state. -/
theorem ends {τ : Type} (view : σ → τ) (target : ρ → τ) (path : Path moves first records last)
    (views : ∀ {before record after}, moves before record after → view after = target record) :
    ∀ record ∈ records.getLast?, view last = target record := by
  induction path with
  | nil => simp
  | cons move rest ih =>
      cases rest with
      | nil =>
          intro record ended
          cases ended
          exact views move
      | cons next later =>
          intro record ended
          exact ih record (by simpa using ended)

end Path

end MarketingAgents.Library
