import Mathlib.Algebra.Order.Group.Nat
import Mathlib.Data.List.Count

namespace MarketingAgents.Library.FixedWindow

/-! # Events counted in fixed windows

Time is cut into windows of one length that start at multiples of it.  A bound
on every window bounds every interval of the same length, wherever it starts.
-/

/-- The start of the window that contains an instant. -/
def floor (length instant : Nat) : Nat := instant / length * length

variable {length start instant : Nat}

theorem floor_le : floor length instant ≤ instant := Nat.div_mul_le_self instant length

theorem lt_floor_add (positive : 0 < length) : instant < floor length instant + length := by
  have split := Nat.div_add_mod instant length
  have rest := Nat.mod_lt instant positive
  rw [floor, Nat.mul_comm]
  omega

/-- The instants of an interval of one window length fall into two windows. -/
theorem floor_of_interval (positive : 0 < length) (after : start ≤ instant)
    (before : instant < start + length) :
    floor length instant = floor length start ∨
      floor length instant = floor length start + length := by
  have low : start / length ≤ instant / length := Nat.div_le_div_right after
  have high : instant / length ≤ start / length + 1 := by
    rw [← Nat.add_div_right start positive]
    exact Nat.div_le_div_right (Nat.le_of_lt before)
  rcases Nat.eq_or_lt_of_le low with same | next
  · exact .inl (by rw [floor, ← same, floor])
  · have following : instant / length = start / length + 1 := Nat.le_antisymm high next
    exact .inr (by rw [floor, following, Nat.succ_mul, floor])

theorem countP_le_add {α : Type} {test left right : α → Bool} {events : List α}
    (covered : ∀ event ∈ events, test event → left event ∨ right event) :
    events.countP test ≤ events.countP left + events.countP right := by
  induction events with
  | nil => simp
  | cons event rest ih =>
      have first := covered event (by simp)
      have others := ih fun other listed => covered other (by simp [listed])
      simp only [List.countP_cons]
      cases passes : test event with
      | false => simp only [Bool.false_eq_true, if_false]; omega
      | true =>
          rcases first passes with holds | holds <;> simp only [holds, if_true] <;> omega

/-- At most twice the capacity of one window happens in any interval of its length. -/
theorem interval_le {α : Type} {events : List α} {capacity : Nat} (start : Nat) (time : α → Nat)
    (positive : 0 < length)
    (bounded : ∀ window, (events.countP fun event => floor length (time event) = window) ≤
      capacity) :
    (events.countP fun event => start ≤ time event ∧ time event < start + length) ≤
      2 * capacity := by
  have covered : (events.countP fun event => start ≤ time event ∧ time event < start + length) ≤
      (events.countP fun event => floor length (time event) = floor length start) +
        events.countP fun event => floor length (time event) = floor length start + length := by
    refine countP_le_add fun event _ inside => ?_
    simp only [decide_eq_true_eq] at inside ⊢
    exact floor_of_interval positive inside.1 inside.2
  have first := bounded (floor length start)
  have second := bounded (floor length start + length)
  omega

end MarketingAgents.Library.FixedWindow
