import Mathlib.Data.List.Basic
import Mathlib.Tactic.Common

/-!
# Actions on a state that may fail

An action changes the state also when it fails.  What an action leaves
unchanged is a property of the whole action, and it is built up from its parts.
-/

/-- An action returns a value or an error, and leaves a state either way. -/
def StatefulAction (ε σ α : Type*) := σ → Except ε α × σ

namespace StatefulAction

universe u v w

variable {ε ε' : Type v} {σ : Type w} {γ : Type*} {α β : Type u}

protected def pure (value : α) : StatefulAction ε σ α := fun state => (.ok value, state)

protected def bind (action : StatefulAction ε σ α) (next : α → StatefulAction ε σ β) :
    StatefulAction ε σ β := fun state =>
  match action state with
  | (.ok value, state) => next value state
  | (.error error, state) => (.error error, state)

instance : Monad (StatefulAction ε σ) where
  pure := StatefulAction.pure
  bind := StatefulAction.bind

theorem pure_eq_ok {value result : α} {state after : σ} :
    (Pure.pure value : StatefulAction ε σ α) state = (.ok result, after) ↔
      value = result ∧ state = after := by
  change ((Except.ok value, state) : Except ε α × σ) = (Except.ok result, after) ↔ _
  rw [Prod.mk.injEq, Except.ok.injEq]

/-- Two actions in a row return when both do. -/
theorem bind_eq_ok {action : StatefulAction ε σ α} {next : α → StatefulAction ε σ β}
    {state after : σ} {result : β} :
    (action >>= next) state = (.ok result, after) ↔
      ∃ value between, action state = (.ok value, between) ∧
        next value between = (.ok result, after) := by
  change StatefulAction.bind action next state = (Except.ok result, after) ↔ _
  rw [StatefulAction.bind]
  rcases action state with ⟨error | value, between⟩
  · simp
  · simp

theorem bind_of_ok {action : StatefulAction ε σ α} {next : α → StatefulAction ε σ β}
    {state between : σ} {value : α} (haction : action state = (.ok value, between)) :
    (action >>= next) state = next value between := by
  change StatefulAction.bind action next state = _
  rw [StatefulAction.bind, haction]

theorem bind_of_error {action : StatefulAction ε σ α} {next : α → StatefulAction ε σ β}
    {state between : σ} {error : ε} (haction : action state = (.error error, between)) :
    (action >>= next) state = (.error error, between) := by
  change StatefulAction.bind action next state = _
  rw [StatefulAction.bind, haction]

/-- What is made of the value does not change the state. -/
theorem bind_pure_state (action : StatefulAction ε σ α) (f : α → β) (state : σ) :
    ((action >>= fun value => Pure.pure (f value)) state).2 = (action state).2 := by
  rcases haction : action state with ⟨error | value, after⟩
  · rw [bind_of_error haction]
  · rw [bind_of_ok haction]
    rfl

def ofExcept (result : Except ε α) : StatefulAction ε σ α := fun state => (result, state)

def fail (error : ε) : StatefulAction ε σ α := ofExcept (.error error)

/-- The same action with its errors seen as others. -/
def mapError (f : ε → ε') (action : StatefulAction ε σ α) : StatefulAction ε' σ α := fun state =>
  match action state with
  | (.ok value, state) => (.ok value, state)
  | (.error error, state) => (.error (f error), state)

section MapError

variable (f : ε → ε') (action : StatefulAction ε σ α) (state : σ)

@[simp] theorem mapError_state : (action.mapError f state).2 = (action state).2 := by
  rw [mapError]
  rcases action state with ⟨error | value, after⟩ <;> rfl

theorem mapError_ok_iff {value : α} :
    (action.mapError f state).1 = .ok value ↔ (action state).1 = .ok value := by
  rw [mapError]
  rcases action state with ⟨error | value, after⟩ <;> simp

theorem mapError_error_iff {error : ε'} :
    (action.mapError f state).1 = .error error ↔
      ∃ cause, (action state).1 = .error cause ∧ f cause = error := by
  rw [mapError]
  rcases action state with ⟨cause | value, after⟩ <;> simp

end MapError

/-- The action leaves the viewed part of every state as it is. -/
def Keeps (view : σ → γ) (action : StatefulAction ε σ α) : Prop :=
  ∀ state, view (action state).2 = view state

namespace Keeps

variable {view : σ → γ}

theorem pure (value : α) : Keeps view (Pure.pure value : StatefulAction ε σ α) := fun _ => rfl

theorem ofExcept (result : Except ε α) :
    Keeps view (StatefulAction.ofExcept result : StatefulAction ε σ α) := fun _ => rfl

theorem fail (error : ε) : Keeps view (StatefulAction.fail error : StatefulAction ε σ α) :=
  fun _ => rfl

theorem bind {action : StatefulAction ε σ α} {next : α → StatefulAction ε σ β}
    (haction : Keeps view action) (hnext : ∀ value, Keeps view (next value)) :
    Keeps view (action >>= next) := by
  intro state
  have hstart := haction state
  change view (StatefulAction.bind action next state).2 = view state
  rw [StatefulAction.bind]
  revert hstart
  rcases action state with ⟨error | value, after⟩
  · exact fun hstart => hstart
  · exact fun hstart => (hnext value after).trans hstart

theorem mapError {f : ε → ε'} {action : StatefulAction ε σ α} (haction : Keeps view action) :
    Keeps view (action.mapError f) := by
  intro state
  rw [mapError_state]
  exact haction state

theorem foldlM {step : β → α → StatefulAction ε σ β} (hstep : ∀ value item,
    Keeps view (step value item)) (items : List α) (start : β) :
    Keeps view (items.foldlM step start) := by
  induction items generalizing start with
  | nil => exact pure start
  | cons item rest ih => exact bind (hstep start item) ih

end Keeps

/-- Whatever the state: what the action returns is of this kind, and it fails only in this
case. -/
def Meets (action : StatefulAction ε σ α) (returned : α → Prop) (failed : Prop) : Prop :=
  ∀ state, (∀ value, (action state).1 = .ok value → returned value) ∧
    ∀ error, (action state).1 = .error error → failed

namespace Meets

variable {returned : α → Prop} {failed : Prop}

theorem pure {value : α} (hvalue : returned value) :
    Meets (Pure.pure value : StatefulAction ε σ α) returned failed := by
  intro state
  refine ⟨fun other hother => ?_, fun error herror => by cases herror⟩
  cases hother
  exact hvalue

theorem fail {error : ε} (hfailed : failed) :
    Meets (StatefulAction.fail error : StatefulAction ε σ α) returned failed :=
  fun _ => ⟨fun _ hvalue => (by cases hvalue), fun _ _ => hfailed⟩

theorem bind {action : StatefulAction ε σ α} {next : α → StatefulAction ε σ β}
    {result : β → Prop} (haction : Meets action returned failed)
    (hnext : ∀ value, returned value → Meets (next value) result failed) :
    Meets (action >>= next) result failed := by
  intro state
  have hstart := haction state
  change (∀ value, (StatefulAction.bind action next state).1 = .ok value → result value) ∧
    ∀ error, (StatefulAction.bind action next state).1 = .error error → failed
  rw [StatefulAction.bind]
  revert hstart
  rcases action state with ⟨error | value, after⟩
  · exact fun hstart => ⟨fun _ hvalue => (by cases hvalue), fun _ _ => hstart.2 error rfl⟩
  · exact fun hstart => hnext value (hstart.1 value rfl) after

/-- A fold keeps an invariant between the items it has still to take and its value. -/
theorem foldlM {step : β → α → StatefulAction ε σ β} {invariant : List α → β → Prop}
    (hstep : ∀ item rest value, invariant (item :: rest) value →
      Meets (step value item) (invariant rest) failed)
    {items : List α} {start : β} (hstart : invariant items start) :
    Meets (items.foldlM step start) (invariant []) failed := by
  induction items generalizing start with
  | nil => exact pure hstart
  | cons item rest ih => exact bind (hstep item rest start hstart) fun _ hvalue => ih hvalue

end Meets

end StatefulAction
