import Mathlib.Logic.Relation

namespace MarketingAgents.Library

/-! # Labelled machines and their runs

A machine is a set of initial states together with labelled steps.  Runs carry
a predicate that restricts which labels may be taken in which state, so one
induction serves both the unrestricted runs and those whose steps all meet a
stated condition.
-/

universe u v

/-- Initial states and labelled steps of a state machine. -/
structure Machine (σ : Type u) (ι : Type v) where
  initial : σ → Prop
  step : σ → ι → σ → Prop

namespace Machine

variable {σ : Type u} {ι : Type v} {machine : Machine σ ι} {allowed : σ → ι → Prop}
variable {origin state after : σ}

/-- Finite runs in which every label was allowed in the state that took it. -/
inductive RunWhere (machine : Machine σ ι) (allowed : σ → ι → Prop) (origin : σ) : σ → Prop where
  | refl : RunWhere machine allowed origin origin
  | tail {state after : σ} (label : ι) (run : RunWhere machine allowed origin state)
      (permitted : allowed state label) (stepped : machine.step state label after) :
      RunWhere machine allowed origin after

/-- Unrestricted finite runs. -/
abbrev Run (machine : Machine σ ι) (origin state : σ) : Prop :=
  RunWhere machine (fun _ _ => True) origin state

/-- States at the end of some run from an initial state, all of whose steps were allowed. -/
def ReachableWhere (machine : Machine σ ι) (allowed : σ → ι → Prop) (state : σ) : Prop :=
  ∃ origin, machine.initial origin ∧ RunWhere machine allowed origin state

abbrev Reachable (machine : Machine σ ι) (state : σ) : Prop :=
  ReachableWhere machine (fun _ _ => True) state

theorem ReachableWhere.start (initial : machine.initial state) :
    ReachableWhere machine allowed state :=
  ⟨state, initial, .refl⟩

theorem ReachableWhere.next (label : ι) (reached : ReachableWhere machine allowed state)
    (permitted : allowed state label) (stepped : machine.step state label after) :
    ReachableWhere machine allowed after := by
  obtain ⟨origin, initial, run⟩ := reached
  exact ⟨origin, initial, .tail label run permitted stepped⟩

theorem Reachable.next (label : ι) (reached : Reachable machine state)
    (stepped : machine.step state label after) : Reachable machine after :=
  ReachableWhere.next label reached trivial stepped

theorem RunWhere.trans (first : RunWhere machine allowed origin middle)
    (second : RunWhere machine allowed middle last) : RunWhere machine allowed origin last := by
  induction second with
  | refl => exact first
  | tail label _ permitted stepped ih => exact .tail label ih permitted stepped

theorem RunWhere.weaken {wider : σ → ι → Prop} (run : RunWhere machine allowed origin state)
    (implied : ∀ {state label}, allowed state label → wider state label) :
    RunWhere machine wider origin state := by
  induction run with
  | refl => exact .refl
  | tail label _ permitted stepped ih => exact .tail label ih (implied permitted) stepped

theorem ReachableWhere.weaken {wider : σ → ι → Prop}
    (reached : ReachableWhere machine allowed state)
    (implied : ∀ {state label}, allowed state label → wider state label) :
    ReachableWhere machine wider state := by
  obtain ⟨origin, initial, run⟩ := reached
  exact ⟨origin, initial, run.weaken implied⟩

theorem ReachableWhere.reachable (reached : ReachableWhere machine allowed state) :
    Reachable machine state :=
  reached.weaken fun _ => trivial

theorem ReachableWhere.continue (reached : ReachableWhere machine allowed origin)
    (run : RunWhere machine allowed origin state) : ReachableWhere machine allowed state := by
  obtain ⟨first, initial, before⟩ := reached
  exact ⟨first, initial, before.trans run⟩

/-- What every allowed step preserves holds at the end of every run that starts with it. -/
theorem RunWhere.preserves (invariant : σ → Prop) (run : RunWhere machine allowed origin state)
    (holds : invariant origin)
    (preserved : ∀ {state label after}, invariant state → allowed state label →
      machine.step state label after → invariant after) : invariant state := by
  induction run with
  | refl => exact holds
  | tail label _ permitted stepped ih => exact preserved ih permitted stepped

theorem ReachableWhere.invariant (invariant : σ → Prop)
    (reached : ReachableWhere machine allowed state)
    (initially : ∀ {state}, machine.initial state → invariant state)
    (preserved : ∀ {state label after}, invariant state → allowed state label →
      machine.step state label after → invariant after) : invariant state := by
  obtain ⟨origin, initial, run⟩ := reached
  exact run.preserves invariant (initially initial) preserved

theorem Reachable.invariant (invariant : σ → Prop) (reached : Reachable machine state)
    (initially : ∀ {state}, machine.initial state → invariant state)
    (preserved : ∀ {state label after}, invariant state →
      machine.step state label after → invariant after) : invariant state :=
  ReachableWhere.invariant invariant reached initially fun holds _ stepped =>
    preserved holds stepped

/-- A reflexive and transitive relation that every step respects relates the ends of a run. -/
theorem RunWhere.relates {relation : σ → σ → Prop} (run : RunWhere machine allowed origin state)
    (reflexive : ∀ state, relation state state)
    (transitive : ∀ {first second third}, relation first second → relation second third →
      relation first third)
    (respected : ∀ {state label after}, RunWhere machine allowed origin state →
      machine.step state label after → relation state after) : relation origin state := by
  induction run with
  | refl => exact reflexive _
  | tail label before _ stepped ih => exact transitive ih (respected before stepped)

end Machine

end MarketingAgents.Library
