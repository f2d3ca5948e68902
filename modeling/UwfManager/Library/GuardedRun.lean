import Mathlib.Data.List.Basic
import Mathlib.Tactic.Common

/-!
# Guarded runs

A deterministic system that takes one action after the other, and the runs in
which a condition on the current state holds at every action.
-/

namespace GuardedRun

variable {σ α : Type*} (step : σ → α → σ) (guard : σ → α → Prop)

/-- The guard holds at each action, in the state the action finds. -/
def Guarded : σ → List α → Prop
  | _, [] => True
  | state, action :: rest => guard state action ∧ Guarded (step state action) rest

instance [∀ state action, Decidable (guard state action)] :
    ∀ (state : σ) (actions : List α), Decidable (Guarded step guard state actions)
  | _, [] => inferInstanceAs (Decidable True)
  | state, action :: rest =>
      have : Decidable (Guarded step guard (step state action) rest) :=
        instDecidableGuarded (step state action) rest
      inferInstanceAs (Decidable (_ ∧ _))

theorem guarded_append_iff (state : σ) (first second : List α) :
    Guarded step guard state (first ++ second) ↔
      Guarded step guard state first ∧ Guarded step guard (first.foldl step state) second := by
  induction first generalizing state with
  | nil => simp [Guarded]
  | cons action rest ih => simp only [List.cons_append, Guarded, List.foldl_cons, ih, and_assoc]

variable {step guard}

/-- What every guarded action preserves holds at the end of a guarded run. -/
theorem preserved {invariant : σ → Prop}
    (hstep : ∀ state action, invariant state → guard state action →
      invariant (step state action))
    {state : σ} {actions : List α} (hstate : invariant state)
    (hguarded : Guarded step guard state actions) : invariant (actions.foldl step state) := by
  induction actions generalizing state with
  | nil => exact hstate
  | cons action rest ih => exact ih (hstep state action hstate hguarded.1) hguarded.2

/-- It holds in every state on the way as well. -/
theorem preserved_of_prefix {invariant : σ → Prop}
    (hstep : ∀ state action, invariant state → guard state action →
      invariant (step state action))
    {state : σ} {actions : List α} (hstate : invariant state)
    (hguarded : Guarded step guard state actions) {front : List α} (hfront : front <+: actions) :
    invariant (front.foldl step state) := by
  obtain ⟨rest, rfl⟩ := hfront
  exact preserved hstep hstate ((guarded_append_iff step guard state front rest).1 hguarded).1

theorem guarded_of_forall (hguard : ∀ state action, guard state action) (state : σ)
    (actions : List α) : Guarded step guard state actions := by
  induction actions generalizing state with
  | nil => exact trivial
  | cons action rest ih => exact ⟨hguard state action, ih _⟩

end GuardedRun
