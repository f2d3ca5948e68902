import UwfManager.Library.GuardedRun
import UwfManager.Overlay.CoordinatorInvariants

/-!
# Runs of the coordinator

Every event of the queue keeps the invariants and leads to less that is left to process.
The completion of a detachment is the exception: when a new round of releases is answered
by the timer while the completion of the old one still waits, it closes the new one.
-/

namespace UwfManager

open TaskbarLayoutStrategy (AttachReadiness DetachResult)
open GuardedRun (Guarded)

namespace TaskbarLayoutCoordinator

variable {σ S W : Type*}

/-! ## Rows of the table -/

theorem reduce_release {state : State} (hactive : state ∈ activeStates) (windowDestroyed : Bool)
    (request : Option (AttachRequest W)) :
    reduce state (⟨.detachRequested, windowDestroyed, request⟩ : Event W) =
        ⟨.detaching, .beginUserDetach⟩ ∧
      reduce state (⟨.hostInvalidated, windowDestroyed, request⟩ : Event W) =
        ⟨.detaching, .beginHostDetach⟩ := by
  simp only [activeStates, List.mem_cons, List.not_mem_nil, or_false] at hactive
  rcases hactive with rfl | rfl | rfl | rfl | rfl | rfl | rfl | rfl | rfl <;> exact ⟨rfl, rfl⟩

theorem reduce_operating {state : State} (hstate : state ∈ operatingStates)
    (windowDestroyed : Bool) (request : Option (AttachRequest W)) :
    ∀ type ∈ [EventType.acquireRequested, .activateRequested, .detachDue],
      reduce state (⟨type, windowDestroyed, request⟩ : Event W) = ⟨state, .none⟩ := by
  simp only [operatingStates, List.mem_cons, List.not_mem_nil, or_false] at hstate ⊢
  rintro type (rfl | rfl | rfl) <;>
    rcases hstate with rfl | rfl | rfl | rfl | rfl | rfl | rfl <;> rfl

section Results

variable {state : State} (hstate : state ∈ operatingStates) {type : EventType}
  (windowDestroyed : Bool) (request : Option (AttachRequest W))
include hstate

theorem reduce_prepared (hfits : fits state .operationPrepared = true) :
    reduce state (⟨.operationPrepared, windowDestroyed, request⟩ : Event W) =
        ⟨.prepared, .completePrepared⟩ ∨
      reduce state (⟨.operationPrepared, windowDestroyed, request⟩ : Event W) =
        ⟨.finalizing, .finalize⟩ := by
  simp only [operatingStates, List.mem_cons, List.not_mem_nil, or_false] at hstate
  rcases hstate with rfl | rfl | rfl | rfl | rfl | rfl | rfl <;>
    first | exact Or.inl rfl | exact Or.inr rfl | exact absurd hfits (by decide)

theorem reduce_attached (hfits : fits state .operationAttached = true) :
    reduce state (⟨.operationAttached, windowDestroyed, request⟩ : Event W) =
      ⟨.attached, .completeAttached⟩ := by
  simp only [operatingStates, List.mem_cons, List.not_mem_nil, or_false] at hstate
  rcases hstate with rfl | rfl | rfl | rfl | rfl | rfl | rfl <;>
    first | rfl | exact absurd hfits (by decide)

theorem reduce_retained (hfits : fits state .operationRetained = true) :
    reduce state (⟨.operationRetained, windowDestroyed, request⟩ : Event W) =
      ⟨.attached, .completeRetained⟩ := by
  simp only [operatingStates, List.mem_cons, List.not_mem_nil, or_false] at hstate
  rcases hstate with rfl | rfl | rfl | rfl | rfl | rfl | rfl <;>
    first | rfl | exact absurd hfits (by decide)

theorem reduce_needsDetach (hfits : fits state .operationNeedsDetach = true) :
    reduce state (⟨.operationNeedsDetach, windowDestroyed, request⟩ : Event W) =
      ⟨.detaching, .beginUserDetach⟩ := by
  simp only [operatingStates, List.mem_cons, List.not_mem_nil, or_false] at hstate
  rcases hstate with rfl | rfl | rfl | rfl | rfl | rfl | rfl <;>
    first | rfl | exact absurd hfits (by decide)

end Results

theorem rank_pos (state : State) (compatible : ℕ) (type : EventType) :
    0 < rank state compatible type := by
  cases type <;> simp only [rank] <;> first | omega | (split_ifs <;> omega)

/-- An operation that has ended without an attachment is given up, or goes on with a new
window or with the next strategy. -/
theorem reduce_ended {state : State} (hstate : state ∈ operatingStates) {type : EventType}
    (htype : type ∈ [EventType.operationTemporary, .operationIncompatible, .operationFailed,
      .operationRetryPrepare, .operationRecreatePrepare, .operationRecreateActivation,
      .operationRecreateFailure, .operationRecreateIncompatible, .windowRecreated,
      .windowRecreationFailed])
    (hfits : fits state type = true) (windowDestroyed : Bool)
    (request : Option (AttachRequest W)) (compatible : ℕ) :
    ∃ next action, reduce state (⟨type, windowDestroyed, request⟩ : Event W) = ⟨next, action⟩ ∧
      (next = .detached ∧ action ∈ [Action.completeTemporary, .completeIncompatible,
          .completeFailed] ∨
        next ∈ recreatingStates ∧ action = .recreateWindow ∧
          rank next compatible .windowRecreated < rank state compatible type ∨
        (next = .preparing ∨ next = .repreparing) ∧ action = .prepare ∧
          8 * compatible + 5 < rank state compatible type) := by
  simp only [operatingStates, List.mem_cons, List.not_mem_nil, or_false] at hstate htype
  rcases hstate with rfl | rfl | rfl | rfl | rfl | rfl | rfl <;>
    rcases htype with rfl | rfl | rfl | rfl | rfl | rfl | rfl | rfl | rfl | rfl <;>
    first
    | exact absurd hfits (by decide)
    | exact ⟨_, _, rfl, Or.inl ⟨rfl, by decide⟩⟩
    | exact ⟨_, _, rfl, Or.inr (Or.inl ⟨by decide, rfl, by simp [rank]⟩)⟩
    | exact ⟨_, _, rfl, Or.inr (Or.inr ⟨by decide, rfl, by simp [rank]⟩)⟩

variable [DecidableEq S] [DecidableEq W] (c : TaskbarLayoutCoordinator σ S W)
  {calls : TaskbarShell σ S W}

/-! ## One event of the queue -/

/-- What the processing of an event leads to.  A result leads to results of a lower rank. -/
def Handles (calls : TaskbarShell σ S W) (event : Event W) : Prop :=
  ∃ bound, Operated calls c (c.handle calls event) bound ∧
    (event.type.isArrival = true ∨ bound < c.weight + rank c.state c.compatible event.type)

variable {c} {event : Event W}

theorem Operated.refl (hcoherent : c.Coherent) : Operated calls c c c.weight :=
  ⟨hcoherent, fun _ _ => Nat.le_refl _, Nat.le_refl _⟩

/-- A change of what an operation holds and of its answer is no new event. -/
theorem operated_of_same {after : TaskbarLayoutCoordinator σ S W} (hcoherent : after.Coherent)
    (hevents : after.events = c.events) (hshell : after.shell = c.shell) :
    Operated calls c after after.weight := by
  refine ⟨hcoherent, fun budget _ => ?_, Nat.le_refl _⟩
  exact Nat.le_of_eq (by rw [energy, energy, pendingArrivals, pendingArrivals, hevents, hshell])

/-- The measure of the arrivals looks at the queue and the shell only. -/
theorem Operated.of_same {before after : TaskbarLayoutCoordinator σ S W} {bound : ℕ}
    (hoperated : Operated calls before after bound) (hevents : before.events = c.events)
    (hshell : before.shell = c.shell) : Operated calls c after bound := by
  refine ⟨hoperated.coherent, fun budget hbudget => ?_, hoperated.weight⟩
  have hsame : before.energy budget = c.energy budget := by
    rw [TaskbarLayoutCoordinator.energy, TaskbarLayoutCoordinator.energy, pendingArrivals,
      pendingArrivals, hevents, hshell]
  exact hsame ▸ hoperated.energy budget hbudget

theorem handles_of_arrival (harrival : event.type.isArrival = true) {state : State}
    {action : Action} (hreduce : reduce c.state event = ⟨state, action⟩)
    (hoperated : ∃ bound,
      Operated calls c ({ c with state := state }.execute calls action event) bound) :
    Handles c calls event := by
  obtain ⟨bound, hoperated⟩ := hoperated
  refine ⟨bound, ?_, Or.inl harrival⟩
  rw [handle, hreduce]
  exact hoperated

theorem handles_ignored (hcoherent : c.Coherent) (harrival : event.type.isArrival = true)
    (hreduce : reduce c.state event = ⟨c.state, .none⟩) : Handles c calls event :=
  handles_of_arrival harrival hreduce ⟨_, Operated.refl hcoherent⟩

/-- In every state with something to release a detachment begins at once. -/
theorem handles_release (hactive : c.state ∈ activeStates) (hsecured : c.Secured)
    (hcompletion : ∀ other ∈ c.events, other.type ≠ .detachCompleted)
    (hrelease : event.type = .detachRequested ∨ event.type = .hostInvalidated) :
    Handles c calls event := by
  have hbegin := fun cause => @beginDetaching_operated σ S W { c with state := .detaching }
    calls _ _ rfl hsecured hcompletion cause
  obtain ⟨type, windowDestroyed, request⟩ := event
  obtain ⟨huser, hhost⟩ := reduce_release hactive windowDestroyed request
  simp only at hrelease
  rcases hrelease with rfl | rfl
  · exact handles_of_arrival rfl huser ⟨_, (hbegin .userRequested).of_same rfl rfl⟩
  · exact handles_of_arrival rfl hhost ⟨_, (hbegin .hostInvalidated).of_same rfl rfl⟩

/-- In the state `detached` a request is taken on and all else is refused. -/
theorem handles_detached (hstate : c.state = .detached) (hqueue : Arrivals c.events)
    (hattachment : c.attachment = none) (htransaction : c.transaction = none)
    (hrequest : c.request = none) (hdetaching : c.detaching = none) (hfate : c.fate = .settled)
    (hlast : c.lastAttachResult ≠ .prepared ∧ c.lastAttachResult ≠ .attached)
    (harrival : event.type.isArrival = true) : Handles c calls event := by
  have hcoherent : c.Coherent :=
    .detached hstate hqueue hattachment htransaction hrequest hdetaching hfate hlast
  obtain ⟨type, windowDestroyed, request⟩ := event
  cases type with
  | acquireRequested =>
      have hreduce : reduce c.state (⟨.acquireRequested, windowDestroyed, request⟩ : Event W) =
          ⟨.preparing, .acceptRequest⟩ := by rw [hstate]; rfl
      obtain ⟨bound, hoperated, -⟩ := @runPrepare_operated σ S W
        { c with state := .preparing, request := request } calls _ _ (Or.inl rfl) hqueue hdetaching
        htransaction hfate
      exact handles_of_arrival harrival hreduce ⟨_, hoperated.of_same rfl rfl⟩
  | activateRequested =>
      have hreduce : reduce c.state (⟨.activateRequested, windowDestroyed, request⟩ : Event W) =
          ⟨.detached, .completeFailed⟩ := by rw [hstate]; rfl
      refine handles_of_arrival harrival hreduce ⟨_, operated_of_same ?_ rfl rfl⟩
      exact .detached rfl hqueue hattachment htransaction rfl hdetaching hfate ⟨by rintro ⟨⟩, by rintro ⟨⟩⟩
  | detachRequested =>
      exact handles_ignored hcoherent harrival (by rw [hstate]; rfl)
  | hostInvalidated =>
      have hreduce : reduce c.state (⟨.hostInvalidated, windowDestroyed, request⟩ : Event W) =
          ⟨.detached, .notifyDetachedHostRefresh⟩ := by rw [hstate]; rfl
      refine handles_of_arrival harrival hreduce ?_
      change ∃ bound, Operated calls c (({ c with state := .detached } :
        TaskbarLayoutCoordinator σ S W).scheduleDetachedHostRefresh) bound
      rw [scheduleDetachedHostRefresh]
      split_ifs
      · refine ⟨_, operated_of_same ?_ rfl rfl⟩
        exact .detached rfl hqueue hattachment htransaction hrequest hdetaching hfate hlast
      · refine ⟨_, operated_of_same ?_ rfl rfl⟩
        refine .detached rfl hqueue hattachment htransaction hrequest hdetaching ?_ hlast
        change (c.record .refreshScheduled).fate = _
        rw [fate_record, hfate]
        rfl
  | detachDue => exact handles_ignored hcoherent harrival (by rw [hstate]; rfl)
  | _ => cases harrival

/-- A prepared transaction is finalized or released. -/
theorem handles_prepared {strategy : S} {window : W} (hstate : c.state = .prepared)
    (hqueue : Arrivals c.events) (hready : c.Ready strategy window)
    (hdetaching : c.detaching = none) (hlast : c.lastAttachResult ≠ .attached)
    (harrival : event.type.isArrival = true) : Handles c calls event := by
  have hcoherent : c.Coherent := .prepared hstate hqueue hready hdetaching hlast
  have halike : Alike c { c with state := .finalizing } := ⟨rfl, rfl, rfl, rfl, rfl, rfl, rfl⟩
  have hrelease := @handles_release σ S W _ _ c calls event (by rw [hstate]; decide) hready.secured
    (arrivals_not_completed hqueue)
  obtain ⟨type, windowDestroyed, request⟩ := event
  cases type with
  | acquireRequested => exact handles_ignored hcoherent harrival (by rw [hstate]; rfl)
  | activateRequested =>
      have hreduce : reduce c.state (⟨.activateRequested, windowDestroyed, request⟩ : Event W) =
          ⟨.finalizing, .finalize⟩ := by rw [hstate]; rfl
      have hoperated := @runFinalize_operated σ S W { c with state := .finalizing } calls _ _
        strategy window rfl hqueue hdetaching (halike.ready hready)
      exact handles_of_arrival harrival hreduce ⟨_, hoperated.of_same rfl rfl⟩
  | detachRequested => exact hrelease (Or.inl rfl)
  | hostInvalidated => exact hrelease (Or.inr rfl)
  | detachDue => exact handles_ignored hcoherent harrival (by rw [hstate]; rfl)
  | _ => cases harrival

/-- An attachment is prepared anew, confirmed or released. -/
theorem handles_attached (hstate : c.state = .attached) (hqueue : Arrivals c.events)
    (hattachment : c.attachment.isSome) (htransaction : c.transaction = none)
    (hdetaching : c.detaching = none) (hfate : c.fate = .settled)
    (hlast : c.lastAttachResult ≠ .prepared) (harrival : event.type.isArrival = true) :
    Handles c calls event := by
  have hcoherent : c.Coherent :=
    .attached hstate hqueue hattachment htransaction hdetaching hfate hlast
  have hrelease := @handles_release σ S W _ _ c calls event (by rw [hstate]; decide)
    (secured_of_settled c htransaction hfate) (arrivals_not_completed hqueue)
  obtain ⟨type, windowDestroyed, request⟩ := event
  cases type with
  | acquireRequested =>
      have hreduce : reduce c.state (⟨.acquireRequested, windowDestroyed, request⟩ : Event W) =
          ⟨.preparing, .acceptRequest⟩ := by rw [hstate]; rfl
      obtain ⟨bound, hoperated, -⟩ := @runPrepare_operated σ S W
        { c with state := .preparing, request := request } calls _ _ (Or.inl rfl) hqueue hdetaching
        htransaction hfate
      exact handles_of_arrival harrival hreduce ⟨_, hoperated.of_same rfl rfl⟩
  | activateRequested =>
      have hreduce : reduce c.state (⟨.activateRequested, windowDestroyed, request⟩ : Event W) =
          ⟨.attached, .completeAttached⟩ := by rw [hstate]; rfl
      refine handles_of_arrival harrival hreduce ⟨_, operated_of_same ?_ rfl rfl⟩
      exact .attached rfl hqueue hattachment rfl hdetaching hfate (by rintro ⟨⟩)
  | detachRequested => exact hrelease (Or.inl rfl)
  | hostInvalidated => exact hrelease (Or.inr rfl)
  | detachDue => exact handles_ignored hcoherent harrival (by rw [hstate]; rfl)
  | _ => cases harrival

/-- While an operation is under way it can only be broken off. -/
theorem handles_operating_arrival {type : EventType} (hstate : c.state ∈ operatingStates)
    (hfits : fits c.state type = true) (hawaits : c.Awaits type) (hheld : c.Held type)
    (hdetaching : c.detaching = none) (harrival : event.type.isArrival = true) :
    Handles c calls event := by
  have hcoherent : c.Coherent := .operating hstate hfits hawaits hheld hdetaching
  have hactive : c.state ∈ activeStates := by
    simp only [operatingStates, activeStates, List.mem_cons, List.not_mem_nil, or_false]
      at hstate ⊢
    tauto
  have htype : type ≠ .detachCompleted := by
    rintro rfl
    cases hheld with
    | ended htype => simp at htype
  have hrelease := @handles_release σ S W _ _ c calls event hactive
    (Held.secured c hheld) (Awaits.not_completed c hawaits htype)
  obtain ⟨arrived, windowDestroyed, request⟩ := event
  have hignored := reduce_operating hstate windowDestroyed request
  cases arrived with
  | acquireRequested => exact handles_ignored hcoherent harrival (hignored _ (by simp))
  | activateRequested => exact handles_ignored hcoherent harrival (hignored _ (by simp))
  | detachRequested => exact hrelease (Or.inl rfl)
  | hostInvalidated => exact hrelease (Or.inr rfl)
  | detachDue => exact handles_ignored hcoherent harrival (hignored _ (by simp))
  | _ => cases harrival

theorem handles_of_result {state : State} {action : Action}
    (hreduce : reduce c.state event = ⟨state, action⟩) {bound : ℕ}
    (hoperated : Operated calls c ({ c with state := state }.execute calls action event) bound)
    (hbound : bound < c.weight + rank c.state c.compatible event.type) :
    Handles c calls event := by
  refine ⟨bound, ?_, Or.inr hbound⟩
  rw [handle, hreduce]
  exact hoperated

/-- A change that ends an operation leaves nothing in an empty queue. -/
theorem operated_of_end {after : TaskbarLayoutCoordinator σ S W} (hcoherent : after.Coherent)
    (hempty : c.events = []) (hevents : after.events = c.events) (hshell : after.shell = c.shell) :
    Operated calls c after 0 :=
  have hsame := @operated_of_same σ S W _ _ c calls after hcoherent hevents hshell
  ⟨hcoherent, hsame.energy, Nat.le_of_eq (weight_of_empty _ (hevents.trans hempty))⟩

/-- The result of a commit is kept, or finalized at once. -/
theorem handles_operationPrepared {strategy : S} {window : W}
    (hstate : c.state = .preparing ∨ c.state = .repreparing) (hempty : c.events = [])
    (hready : c.Ready strategy window) (hdetaching : c.detaching = none)
    (htype : event.type = .operationPrepared) : Handles c calls event := by
  obtain ⟨type, windowDestroyed, request⟩ := event
  simp only at htype
  subst htype
  have hqueue : Arrivals c.events := by
    rw [hempty]
    rintro _ ⟨⟩
  have hkept : ∀ state, Alike c { c with state := state } :=
    fun _ => ⟨rfl, rfl, rfl, rfl, rfl, rfl, rfl⟩
  rcases hstate with hstate | hstate
  · have hreduce : reduce c.state (⟨.operationPrepared, windowDestroyed, request⟩ : Event W) =
        ⟨.prepared, .completePrepared⟩ := by rw [hstate]; rfl
    refine handles_of_result hreduce (operated_of_end ?_ hempty rfl rfl)
      (Nat.lt_of_lt_of_le (rank_pos _ _ _) (Nat.le_add_left _ _))
    have halike : Alike c (({ c with state := .prepared } :
        TaskbarLayoutCoordinator σ S W).finishOperation .prepared) :=
      ⟨rfl, rfl, rfl, rfl, rfl, rfl, rfl⟩
    exact .prepared rfl hqueue (halike.ready hready) hdetaching (by rintro ⟨⟩)
  · have hreduce : reduce c.state (⟨.operationPrepared, windowDestroyed, request⟩ : Event W) =
        ⟨.finalizing, .finalize⟩ := by rw [hstate]; rfl
    have hoperated := @runFinalize_operated σ S W { c with state := .finalizing } calls _ _
      strategy window rfl hqueue hdetaching ((hkept _).ready hready)
    refine handles_of_result hreduce (hoperated.of_same rfl rfl) ?_
    rw [weight_of_empty c hempty, hstate]
    change 8 * c.compatible + 4 < 0 + (8 * c.compatible + 5)
    omega

/-- The result of an operation ends it, or the next operation begins. -/
theorem handles_operating_result (hstate : c.state ∈ operatingStates) (hempty : c.events = [])
    (hfits : fits c.state event.type = true) (hheld : c.Held event.type)
    (hdetaching : c.detaching = none) : Handles c calls event := by
  have hqueue : Arrivals c.events := by
    rw [hempty]
    rintro _ ⟨⟩
  have hlower : 0 < c.weight + rank c.state c.compatible event.type :=
    Nat.lt_of_lt_of_le (rank_pos _ _ _) (Nat.le_add_left _ _)
  obtain ⟨type, windowDestroyed, request⟩ := event
  simp only at hfits hheld hlower
  cases hheld with
  | @prepared strategy window hready =>
      refine handles_operationPrepared ?_ hempty hready hdetaching rfl
      simp only [operatingStates, List.mem_cons, List.not_mem_nil, or_false] at hstate
      rcases hstate with hstate | hstate | hstate | hstate | hstate | hstate | hstate <;>
        rw [hstate] at hfits ⊢ <;> revert hfits <;> decide
  | attached hattachment hfate =>
      have hreduce := reduce_attached hstate windowDestroyed request hfits
      refine handles_of_result hreduce (operated_of_end ?_ hempty rfl rfl) hlower
      exact .attached rfl hqueue hattachment rfl hdetaching hfate (by rintro ⟨⟩)
  | retained hattachment htransaction hfate =>
      have hreduce := reduce_retained hstate windowDestroyed request hfits
      refine handles_of_result hreduce (operated_of_end ?_ hempty rfl rfl) hlower
      exact .attached rfl hqueue hattachment htransaction hdetaching hfate (by rintro ⟨⟩)
  | ended htype hattachment htransaction hfate =>
      obtain ⟨next, action, hreduce, hnext⟩ := reduce_ended hstate htype hfits windowDestroyed
        request c.compatible
      rcases hnext with ⟨rfl, haction⟩ | ⟨hnext, rfl, hrank⟩ | ⟨hnext, rfl, hrank⟩
      · have hfailed : ∀ result : AttachResult, result ≠ .prepared → result ≠ .attached →
            Coherent (({ c with state := .detached } : TaskbarLayoutCoordinator σ S W).finishOperation
              result) := fun result hprepared hattached =>
          .detached rfl hqueue hattachment htransaction (if_neg hprepared) hdetaching hfate
            ⟨hprepared, hattached⟩
        refine handles_of_result hreduce ?_ hlower
        simp only [List.mem_cons, List.not_mem_nil, or_false] at haction
        rcases haction with rfl | rfl | rfl <;>
          exact operated_of_end (hfailed _ (by rintro ⟨⟩) (by rintro ⟨⟩)) hempty rfl rfl
      · have hoperated := @recreateWindow_operated σ S W { c with state := next } calls _ _ hnext
          hqueue hdetaching hattachment htransaction hfate
        refine handles_of_result hreduce (hoperated.of_same rfl rfl) ?_
        rw [weight_of_empty c hempty, Nat.zero_add]
        exact hrank
      · obtain ⟨bound, hoperated, hbound⟩ := @runPrepare_operated σ S W { c with state := next }
          calls _ _ hnext hqueue hdetaching htransaction hfate
        refine handles_of_result hreduce (hoperated.of_same rfl rfl) ?_
        rw [hbound hattachment, weight_of_empty c hempty, Nat.zero_add]
        exact hrank
  | needsDetach hsecured =>
      have hreduce := reduce_needsDetach hstate windowDestroyed request hfits
      have hoperated := @beginDetaching_operated σ S W { c with state := .detaching } calls _ _ rfl
        hsecured (arrivals_not_completed hqueue) .userRequested
      refine handles_of_result hreduce (hoperated.of_same rfl rfl) ?_
      have hweight : weight ({ c with state := .detaching } : TaskbarLayoutCoordinator σ S W) = 0 :=
        weight_of_empty _ hempty
      rw [hweight, weight_of_empty c hempty]
      change 0 + 2 < 0 + 4
      omega

/-! ## Detaching -/

/-- One attempt releases what it can; the rest waits for the timer. -/
theorem advanceDetaching_operated (hstate : c.state = .detaching) (hcontext : c.detaching.isSome)
    (htransaction : c.transaction = none) (hfate : c.fate = .settled)
    (hcompletion : ∀ event ∈ c.events, event.type ≠ .detachCompleted)
    (hlast : c.lastAttachResult ≠ .prepared ∧ c.lastAttachResult ≠ .attached) :
    ∃ bound, Operated calls c (c.advanceDetaching calls) bound := by
  obtain ⟨context, hcontext⟩ := Option.isSome_iff_exists.1 hcontext
  obtain ⟨left, released, hreleases, hcases⟩ := @advanceDetaching_cases σ S W _ c calls context
    hcontext
  have hundisturbed := @releaseStrategies_undisturbed σ S W _ c calls _ context.strategies
    { context with attempts := context.attempts + 1 }
  rw [hreleases] at hundisturbed
  obtain ⟨hframe, -, hkept, -, hsettled⟩ := hundisturbed
  obtain ⟨raised, hevents, hraised⟩ := hframe.events
  have hnone : ∀ event ∈ released.events, event.type ≠ .detachCompleted := by
    rw [hevents]
    intro event hevent
    rcases List.mem_append.1 hevent with hevent | hevent
    · exact hcompletion event hevent
    · exact arrivals_not_completed hraised event hevent
  have hlast' : released.lastAttachResult ≠ .prepared ∧ released.lastAttachResult ≠ .attached := by
    rcases hframe.lastAttachResult with hsame | hfailed
    · rw [hsame]
      exact hlast
    · rw [hfailed]
      exact ⟨by rintro ⟨⟩, by rintro ⟨⟩⟩
  rcases hcases with ⟨-, hafter⟩ | ⟨notices, interval, -, hafter⟩
  · rw [hafter]
    refine ⟨_, ⟨?_, fun budget hbudget => ?_, Nat.le_refl _⟩⟩
    · refine .detaching (hframe.state.trans hstate) ?_ ?_ rfl (hkept.trans htransaction)
        (hsettled.trans hfate) hlast'
      · intro event hevent
        rw [post, List.dropLast_concat] at hevent
        exact hnone event hevent
      · exact Or.inr ⟨_, List.mem_append_right _ (List.mem_singleton_self _), rfl⟩
    · rw [energy_post _ rfl]
      exact hframe.finite budget hbudget
  · rw [hafter]
    refine ⟨_, ⟨?_, fun budget hbudget => hframe.finite budget hbudget, Nat.le_refl _⟩⟩
    refine .detaching (hframe.state.trans hstate) ?_ (Or.inl rfl) rfl (hkept.trans htransaction)
      ?_ hlast'
    · exact fun event hevent => hnone event (List.dropLast_subset _ hevent)
    · calc
        (released.log ++ notices.map LogEntry.published).foldl Fate.after .settled
            = (notices.map LogEntry.published).foldl Fate.after released.fate :=
          List.foldl_append
        _ = released.fate := notices_fate _ _
        _ = .settled := hsettled.trans hfate

/-- The end of a detachment holds nothing. -/
theorem finishDetaching_coherent (hstate : c.state = .detached) (hqueue : Arrivals c.events)
    (hfate : c.fate = .settled)
    (hlast : c.lastAttachResult ≠ .prepared ∧ c.lastAttachResult ≠ .attached) :
    c.finishDetaching.Coherent :=
  .detached hstate hqueue rfl rfl rfl rfl ((publish_fate c _).trans hfate) hlast

/-- A new round of a detachment is announced and waits for the timer. -/
theorem escalateDetaching_operated (hstate : c.state = .detaching) (hcompletion : c.CompletionLast)
    (hwakes : c.Wakes) (hcontext : c.detaching.isSome) (htransaction : c.transaction = none)
    (hfate : c.fate = .settled)
    (hlast : c.lastAttachResult ≠ .prepared ∧ c.lastAttachResult ≠ .attached) :
    ∃ bound, Operated calls c c.escalateDetaching bound := by
  obtain ⟨context, hcontext⟩ := Option.isSome_iff_exists.1 hcontext
  rw [escalateDetaching, hcontext]
  simp only
  split_ifs
  · exact ⟨_, Operated.refl (.detaching hstate hcompletion hwakes (hcontext ▸ rfl) htransaction
      hfate hlast)⟩
  · refine ⟨_, operated_of_same ?_ rfl rfl⟩
    exact .detaching hstate hcompletion (Or.inl rfl) rfl htransaction
      ((publish_fate c _).trans hfate) hlast

/-- The window of a detachment that has destroyed it is made anew. -/
theorem recreateDetachedWindow_operated (hstate : c.state = .recreatingAfterDetach)
    (hqueue : Arrivals c.events) (hcontext : c.detaching.isSome) (htransaction : c.transaction = none)
    (hfate : c.fate = .settled)
    (hlast : c.lastAttachResult ≠ .prepared ∧ c.lastAttachResult ≠ .attached) :
    Operated calls c (c.recreateDetachedWindow calls) 1 := by
  obtain ⟨between, type, hposted, htype, hundisturbed⟩ :=
    @recreateDetachedWindow_spec σ S W _ c calls _
  rw [hposted]
  obtain ⟨hframe, -, hkept, -, hsettled⟩ := hundisturbed
  have hresult : type.isArrival = false ∧ rank c.state between.compatible type = 1 := by
    rw [hstate]
    simp only [List.mem_cons, List.not_mem_nil, or_false] at htype
    rcases htype with rfl | rfl <;> exact ⟨rfl, rfl⟩
  refine ⟨?_, energy_post_le hframe hresult.1 false, ?_⟩
  · refine .recreating (hframe.state.trans hstate) htype (hframe.awaits hqueue type false) ?_
      (hkept.trans htransaction) (hsettled.trans hfate) ?_
    · exact hframe.detaching ▸ hcontext
    · change between.lastAttachResult ≠ _ ∧ between.lastAttachResult ≠ _
      rcases hframe.lastAttachResult with hsame | hfailed
      · rw [hsame]
        exact hlast
      · rw [hfailed]
        exact ⟨by rintro ⟨⟩, by rintro ⟨⟩⟩
  · exact Nat.le_of_eq ((weight_post hframe hqueue hresult.1 false).trans hresult.2)

/-- Every event that a detachment can meet. -/
theorem handles_detaching (hstate : c.state = .detaching) (hcompletion : c.CompletionLast)
    (hcompleted : event.type = .detachCompleted → c.events = [])
    (hwakes : event.type.wakes = false → c.Wakes) (hcontext : c.detaching.isSome)
    (htransaction : c.transaction = none) (hfate : c.fate = .settled)
    (hlast : c.lastAttachResult ≠ .prepared ∧ c.lastAttachResult ≠ .attached)
    (htimely : event.type = .detachDue → ∀ other ∈ c.events, other.type ≠ .detachCompleted) :
    Handles c calls event := by
  obtain ⟨type, windowDestroyed, request⟩ := event
  simp only at hcompleted hwakes htimely
  -- results of an operation that the detachment has broken off
  have hstale : type.wakes = false → type.isArrival = false →
      reduce c.state (⟨type, windowDestroyed, request⟩ : Event W) = ⟨c.state, .none⟩ →
      Handles c calls ⟨type, windowDestroyed, request⟩ := by
    intro hstill _ hreduce
    refine handles_of_result hreduce (Operated.refl ?_) ?_
    · exact .detaching hstate hcompletion (hwakes hstill) hcontext htransaction hfate hlast
    · exact Nat.lt_add_of_pos_right (rank_pos _ _ _)
  have hstatus : type.isArrival = true → type.wakes = false →
      reduce c.state (⟨type, windowDestroyed, request⟩ : Event W) =
        ⟨.detaching, .completeReleaseStatus⟩ →
      Handles c calls ⟨type, windowDestroyed, request⟩ := by
    intro harrival hstill hreduce
    refine handles_of_arrival harrival hreduce ⟨_, operated_of_same ?_ rfl rfl⟩
    exact .detaching rfl hcompletion (hwakes hstill) hcontext htransaction hfate
      (releaseStatus_pending _)
  cases type with
  | acquireRequested => exact hstatus rfl rfl (by rw [hstate]; rfl)
  | activateRequested => exact hstatus rfl rfl (by rw [hstate]; rfl)
  | detachRequested =>
      refine handles_ignored ?_ rfl (by rw [hstate]; rfl)
      exact .detaching hstate hcompletion (hwakes rfl) hcontext htransaction hfate hlast
  | hostInvalidated =>
      have hreduce : reduce c.state (⟨.hostInvalidated, windowDestroyed, request⟩ : Event W) =
          ⟨c.state, .escalateHostDetach⟩ := by rw [hstate]; rfl
      exact handles_of_arrival rfl hreduce (escalateDetaching_operated hstate hcompletion
        (hwakes rfl) hcontext htransaction hfate hlast)
  | detachDue =>
      have hreduce : reduce c.state (⟨.detachDue, windowDestroyed, request⟩ : Event W) =
          ⟨c.state, .advanceDetach⟩ := by rw [hstate]; rfl
      exact handles_of_arrival rfl hreduce (advanceDetaching_operated hstate hcontext
        htransaction hfate (htimely rfl) hlast)
  | detachBlocked =>
      have hreduce : reduce c.state (⟨.detachBlocked, windowDestroyed, request⟩ : Event W) =
          ⟨c.state, .scheduleDetach⟩ := by rw [hstate]; rfl
      refine handles_of_result hreduce (operated_of_same ?_ rfl rfl) ?_
      · exact .detaching hstate hcompletion (Or.inl rfl) hcontext htransaction hfate hlast
      · exact Nat.lt_add_of_pos_right (rank_pos _ _ _)
  | detachCompleted =>
      have hempty := hcompleted rfl
      have hqueue : Arrivals c.events := by
        rw [hempty]
        rintro _ ⟨⟩
      cases windowDestroyed with
      | false =>
          have hreduce : reduce c.state (⟨.detachCompleted, false, request⟩ : Event W) =
              ⟨.detached, .completeDetach⟩ := by rw [hstate]; rfl
          refine handles_of_result hreduce (operated_of_end ?_ hempty rfl rfl)
            (Nat.lt_of_lt_of_le (rank_pos _ _ _) (Nat.le_add_left _ _))
          exact finishDetaching_coherent rfl hqueue hfate hlast
      | true =>
          have hreduce : reduce c.state (⟨.detachCompleted, true, request⟩ : Event W) =
              ⟨.recreatingAfterDetach, .recreateDetachedWindow⟩ := by rw [hstate]; rfl
          have hoperated := @recreateDetachedWindow_operated σ S W _ _
            { c with state := .recreatingAfterDetach } calls rfl hqueue hcontext htransaction hfate
            hlast
          refine handles_of_result hreduce (hoperated.of_same rfl rfl) ?_
          change 1 < c.weight + 2
          omega
  | _ => exact hstale rfl rfl (by rw [hstate]; rfl)

/-- While the window is made anew, requests are only told to wait. -/
theorem handles_recreating_arrival {type : EventType} (hstate : c.state = .recreatingAfterDetach)
    (htype : type ∈ [EventType.windowRecreated, .windowRecreationFailed])
    (hawaits : c.Awaits type) (hcontext : c.detaching.isSome) (htransaction : c.transaction = none)
    (hfate : c.fate = .settled)
    (hlast : c.lastAttachResult ≠ .prepared ∧ c.lastAttachResult ≠ .attached)
    (harrival : event.type.isArrival = true) : Handles c calls event := by
  have hcoherent : c.Coherent :=
    .recreating hstate htype hawaits hcontext htransaction hfate hlast
  have hstatus : reduce c.state event = ⟨.recreatingAfterDetach, .completeReleaseStatus⟩ →
      Handles c calls event := by
    intro hreduce
    refine handles_of_arrival harrival hreduce ⟨_, operated_of_same ?_ rfl rfl⟩
    have hpending := releaseStatus_pending
      ({ c with state := .recreatingAfterDetach } : TaskbarLayoutCoordinator σ S W)
    exact .recreating rfl htype hawaits hcontext htransaction hfate hpending
  obtain ⟨arrived, windowDestroyed, request⟩ := event
  cases arrived with
  | acquireRequested => exact hstatus (by rw [hstate]; rfl)
  | activateRequested => exact hstatus (by rw [hstate]; rfl)
  | detachRequested => exact handles_ignored hcoherent harrival (by rw [hstate]; rfl)
  | hostInvalidated => exact handles_ignored hcoherent harrival (by rw [hstate]; rfl)
  | detachDue => exact handles_ignored hcoherent harrival (by rw [hstate]; rfl)
  | _ => cases harrival

/-- With its new window the detachment is complete. -/
theorem handles_recreating_result (hstate : c.state = .recreatingAfterDetach)
    (htype : event.type ∈ [EventType.windowRecreated, .windowRecreationFailed])
    (hempty : c.events = []) (hfate : c.fate = .settled)
    (hlast : c.lastAttachResult ≠ .prepared ∧ c.lastAttachResult ≠ .attached) :
    Handles c calls event := by
  have hqueue : Arrivals c.events := by
    rw [hempty]
    rintro _ ⟨⟩
  have hreduce : reduce c.state event = ⟨.detached, .completeDetach⟩ := by
    obtain ⟨type, windowDestroyed, request⟩ := event
    simp only [List.mem_cons, List.not_mem_nil, or_false] at htype
    rw [hstate]
    rcases htype with rfl | rfl <;> rfl
  refine handles_of_result hreduce (operated_of_end ?_ hempty rfl rfl)
    (Nat.lt_of_lt_of_le (rank_pos _ _ _) (Nat.le_add_left _ _))
  exact finishDetaching_coherent rfl hqueue hfate hlast

/-! ## Runs -/

/-- No timer is answered by a detachment that has already been completed. -/
def Timely (c : TaskbarLayoutCoordinator σ S W) : Move W → Prop
  | .process => ¬(c.state = .detaching ∧ c.events.head?.any (·.type = .detachDue) ∧
      c.events.any (·.type = .detachCompleted))
  | _ => True

instance (c : TaskbarLayoutCoordinator σ S W) : (move : Move W) → Decidable (c.Timely move)
  | .process => inferInstanceAs (Decidable (¬_))
  | .arrive _ | .refresh | .notify => inferInstanceAs (Decidable True)

/-- Whatever the next event is, it is one that the state can meet. -/
theorem handles_next {events : List (Event W)} (hcoherent : c.Coherent)
    (hevents : c.events = event :: events) (htimely : c.Timely .process) :
    Handles ({ c with events := events } : TaskbarLayoutCoordinator σ S W) calls event := by
  have hqueued : ∀ other ∈ events, other ∈ c.events := fun other hother =>
    hevents ▸ List.mem_cons_of_mem _ hother
  have hhead : event ∈ c.events := hevents ▸ List.mem_cons_self
  have halike : Alike c { c with events := events } := ⟨rfl, rfl, rfl, rfl, rfl, rfl, rfl⟩
  cases hcoherent with
  | detached hstate hqueue hattachment htransaction hrequest hdetaching hfate hlast =>
      exact handles_detached hstate (fun other hother => hqueue other (hqueued other hother))
        hattachment htransaction hrequest hdetaching hfate hlast (hqueue event hhead)
  | prepared hstate hqueue hready hdetaching hlast =>
      exact handles_prepared hstate (fun other hother => hqueue other (hqueued other hother))
        (halike.ready hready) hdetaching hlast (hqueue event hhead)
  | attached hstate hqueue hattachment htransaction hdetaching hfate hlast =>
      exact handles_attached hstate (fun other hother => hqueue other (hqueued other hother))
        hattachment htransaction hdetaching hfate hlast (hqueue event hhead)
  | operating hstate hfits hawaits hheld hdetaching =>
      rcases Awaits.next c hawaits hevents with ⟨harrival, hawaits⟩ | ⟨rfl, rfl⟩
      · exact handles_operating_arrival hstate hfits hawaits (halike.held hheld) hdetaching
          harrival
      · exact handles_operating_result hstate rfl hfits (halike.held hheld) hdetaching
  | detaching hstate hcompletion hwakes hcontext htransaction hfate hlast =>
      obtain ⟨hfirst, hrest⟩ := CompletionLast.next c hcompletion hevents
      refine handles_detaching hstate hrest hfirst ?_ hcontext htransaction hfate hlast ?_
      · intro hstill
        refine hwakes.imp_right ?_
        rintro ⟨other, hother, hwakes⟩
        rw [hevents, List.mem_cons] at hother
        refine ⟨other, hother.resolve_left ?_, hwakes⟩
        rintro rfl
        rw [hstill] at hwakes
        cases hwakes
      · intro hdue other hother hcompleted
        apply htimely
        rw [hevents]
        refine ⟨hstate, ?_, ?_⟩
        · exact decide_eq_true hdue
        · exact List.any_eq_true.2
            ⟨other, List.mem_cons_of_mem _ hother, decide_eq_true hcompleted⟩
  | recreating hstate htype hawaits hcontext htransaction hfate hlast =>
      rcases Awaits.next c hawaits hevents with ⟨harrival, hawaits⟩ | ⟨rfl, rfl⟩
      · exact handles_recreating_arrival hstate htype hawaits hcontext htransaction hfate hlast
          harrival
      · exact handles_recreating_result hstate htype rfl hfate hlast

/-- Less is left to process: fewer arrivals, or results that lead to less. -/
def Lower (calls : TaskbarShell σ S W) (before after : TaskbarLayoutCoordinator σ S W) : Prop :=
  ∀ budget, calls.RaisesFinitely budget → after.energy budget < before.energy budget ∨
    after.energy budget ≤ before.energy budget ∧ after.weight < before.weight

/-- Every event that is processed in time keeps the invariants and leads to less. -/
theorem process_spec (hcoherent : c.Coherent) (hevents : c.events ≠ [])
    (htimely : c.Timely .process) :
    (c.step calls .process).Coherent ∧ Lower calls c (c.step calls .process) := by
  obtain ⟨event, events, hqueue⟩ := List.exists_cons_of_ne_nil hevents
  obtain ⟨bound, hoperated, hbound⟩ := @handles_next σ S W _ _ c calls event events hcoherent hqueue
    htimely
  have hstep : c.step calls .process =
      ({ c with events := events } : TaskbarLayoutCoordinator σ S W).handle calls event := by
    rw [step, hqueue]
  rw [hstep]
  refine ⟨hoperated.coherent, fun budget hbudget => ?_⟩
  have henergy := hoperated.energy budget hbudget
  have hpop := energy_next c hqueue budget
  cases harrival : event.type.isArrival with
  | true =>
      rw [harrival, if_pos rfl] at hpop
      exact Or.inl (by omega)
  | false =>
      rw [harrival, if_neg Bool.false_ne_true] at hpop
      have hlower := hbound.resolve_left (by rw [harrival]; exact Bool.false_ne_true)
      have hweight := hoperated.weight
      have hbefore := weight_next c hqueue harrival
      refine Or.inr ⟨by omega, ?_⟩
      rw [hbefore]
      exact Nat.lt_of_le_of_lt hweight hlower

/-- What arrives while nothing is processed changes nothing that is held. -/
theorem raise_coherent (hcoherent : c.Coherent) (hempty : c.events = []) (arrival : Arrival W) :
    (c.raise arrival).Coherent := by
  have harrived := raise_arrived c arrival
  have hfate' := harrived.fate
  obtain ⟨raised, hevents, -, hraised⟩ := harrived.events
  rw [hempty, List.nil_append] at hevents
  have hqueue : Arrivals (c.raise arrival).events := by
    rw [hevents]
    exact hraised
  have hlast' := harrived.lastAttachResult
  have htimer := harrived.timer
  obtain ⟨last, events, timer, log, hsame⟩ := harrived.same
  rw [hsame] at hfate' hqueue hlast' htimer ⊢
  have hresult : ∀ result : AttachResult, result ≠ .failed → c.lastAttachResult ≠ result →
      last ≠ result := by
    rintro result hfailed hbefore rfl
    exact hlast'.elim (fun hkept => hbefore hkept.symm) hfailed
  cases hcoherent with
  | detached hstate _ hattachment htransaction hrequest hdetaching hfate hlast =>
      exact .detached hstate hqueue hattachment htransaction hrequest hdetaching
        (hfate'.trans hfate) ⟨hresult _ (by rintro ⟨⟩) hlast.1, hresult _ (by rintro ⟨⟩) hlast.2⟩
  | prepared hstate _ hready hdetaching hlast =>
      have halike : Alike c { c with
          lastAttachResult := last, events := events, asyncTimer := timer, log := log } :=
        ⟨rfl, rfl, rfl, rfl, rfl, rfl, hfate'⟩
      exact .prepared hstate hqueue (halike.ready hready) hdetaching (hresult _ (by rintro ⟨⟩) hlast)
  | attached hstate _ hattachment htransaction hdetaching hfate hlast =>
      exact .attached hstate hqueue hattachment htransaction hdetaching (hfate'.trans hfate)
        (hresult _ (by rintro ⟨⟩) hlast)
  | operating _ _ hawaits => exact absurd hempty (Awaits.ne_nil c hawaits)
  | detaching hstate _ hwakes hcontext htransaction hfate hlast =>
      refine .detaching hstate ?_ ?_ hcontext htransaction (hfate'.trans hfate)
        ⟨hresult _ (by rintro ⟨⟩) hlast.1, hresult _ (by rintro ⟨⟩) hlast.2⟩
      · exact fun event hevent =>
          arrivals_not_completed hqueue event (List.dropLast_subset _ hevent)
      · rcases htimer with hkept | ⟨event, hevent, hdue⟩
        · refine hwakes.imp (fun harmed => ?_) ?_
          · rw [hkept]
            exact harmed
          · rintro ⟨event, hevent, -⟩
            rw [hempty] at hevent
            cases hevent
        · exact Or.inr ⟨event, hevent, by rw [hdue]; rfl⟩
  | recreating _ _ hawaits => exact absurd hempty (Awaits.ne_nil c hawaits)

/-- Every move in time keeps the invariants. -/
theorem step_coherent (hcoherent : c.Coherent) (move : Move W) (htimely : c.Timely move) :
    (c.step calls move).Coherent := by
  cases move with
  | process =>
      by_cases hempty : c.events = []
      · rw [step, hempty]
        exact hcoherent
      · exact (process_spec hcoherent hempty htimely).1
  | arrive arrival =>
      rw [step]
      split_ifs with hempty
      · exact raise_coherent hcoherent (List.isEmpty_iff.1 hempty) arrival
      · exact hcoherent
  | refresh =>
      rw [step]
      split_ifs
      · exact Coherent.notified hcoherent _ false
      · exact hcoherent
  | notify =>
      rw [step]
      split_ifs
      · exact Coherent.notified hcoherent _ c.hostRefreshScheduled
      · exact hcoherent

theorem construct_coherent (strategies : List S) (shell : σ) :
    (construct strategies shell : TaskbarLayoutCoordinator σ S W).Coherent :=
  .detached rfl (by rintro _ ⟨⟩) rfl rfl rfl rfl rfl ⟨by rintro ⟨⟩, by rintro ⟨⟩⟩

/-- The processing ends, unless it comes to a timer that is late. -/
theorem process_ends {budget : σ → ℕ} (hbudget : calls.RaisesFinitely budget)
    (hcoherent : c.Coherent) :
    ∃ count, Guarded (step calls) Timely c (List.replicate count .process) →
      ((List.replicate count .process).foldl (step calls) c).events = [] := by
  have hmeasure : WellFounded (Prod.Lex (· < · : ℕ → ℕ → Prop) (· < · : ℕ → ℕ → Prop)) :=
    (Prod.instWellFoundedRelation).wf
  generalize hvalue : (c.energy budget, c.weight) = value
  induction value using hmeasure.induction generalizing c with
  | _ value ih =>
      by_cases hempty : c.events = []
      · exact ⟨0, fun _ => hempty⟩
      by_cases htimely : c.Timely .process
      · obtain ⟨hnext, hlower⟩ := @process_spec σ S W _ _ c calls hcoherent hempty htimely
        obtain ⟨count, hends⟩ := ih _ (by
          rw [← hvalue, Prod.lex_def]
          rcases hlower budget hbudget with hless | ⟨hle, hless⟩
          · exact Or.inl hless
          · exact (Nat.lt_or_eq_of_le hle).imp_right fun hsame => ⟨hsame, hless⟩) hnext rfl
        exact ⟨count + 1, fun hguarded => hends hguarded.2⟩
      · exact ⟨1, fun hguarded => absurd hguarded.1 htimely⟩

/-- What is held whenever the queue is empty. -/
structure Quiescent (c : TaskbarLayoutCoordinator σ S W) : Prop where
  state : c.state ∈ [State.detached, .prepared, .attached, .detaching]
  detached : c.state = .detached →
    c.attachment = none ∧ c.transaction = none ∧ c.request = none
  prepared : c.state = .prepared →
    c.attachment.isSome ∧ c.transaction.isSome ∧ c.request.isSome
  attached : c.state = .attached → c.attachment.isSome ∧ c.transaction = none
  detaching : c.state = .detaching → c.detaching.isSome ∧ c.asyncTimer.isSome
  committed : c.fate = .settled ∨ c.state = .prepared ∧ ∃ strategy window hidden,
    c.transaction = some strategy ∧ c.attachment = some ⟨strategy, window⟩ ∧
      c.fate = .pending strategy window hidden
  answerPrepared : c.lastAttachResult = .prepared → c.state = .prepared
  answerAttached : c.lastAttachResult = .attached → c.state = .attached

theorem Coherent.quiescent (hcoherent : c.Coherent) (hempty : c.events = []) : c.Quiescent := by
  cases hcoherent with
  | detached hstate _ hattachment htransaction hrequest _ hfate hlast =>
      refine ⟨by rw [hstate]; decide, fun _ => ⟨hattachment, htransaction, hrequest⟩, ?_, ?_, ?_,
        Or.inl hfate, fun hanswer => absurd hanswer hlast.1, fun hanswer => absurd hanswer hlast.2⟩
      all_goals
        rw [hstate]
        rintro ⟨⟩
  | @prepared strategy window hstate _ hready _ hlast =>
      obtain ⟨hidden, hfate⟩ := hready.fate
      refine ⟨by rw [hstate]; decide, ?_, fun _ => ⟨?_, ?_, ?_⟩, ?_, ?_, Or.inr ⟨hstate, strategy,
        window, hidden, hready.transaction, hready.attachment, hfate⟩, fun _ => hstate,
        fun hanswer => absurd hanswer hlast⟩
      · rw [hstate]
        rintro ⟨⟩
      · rw [hready.attachment, Option.isSome_some]
      · rw [hready.transaction, Option.isSome_some]
      · rw [hready.request, Option.isSome_some]
      all_goals
        rw [hstate]
        rintro ⟨⟩
  | attached hstate _ hattachment htransaction _ hfate hlast =>
      refine ⟨by rw [hstate]; decide, ?_, ?_, fun _ => ⟨hattachment, htransaction⟩, ?_,
        Or.inl hfate, fun hanswer => absurd hanswer hlast, fun _ => hstate⟩
      all_goals
        rw [hstate]
        rintro ⟨⟩
  | operating _ _ hawaits => exact absurd hempty (Awaits.ne_nil c hawaits)
  | detaching hstate _ hwakes hcontext _ hfate hlast =>
      have harmed : c.asyncTimer.isSome := by
        refine hwakes.resolve_right ?_
        rintro ⟨event, hevent, -⟩
        rw [hempty] at hevent
        cases hevent
      refine ⟨by rw [hstate]; decide, ?_, ?_, ?_, fun _ => ⟨hcontext, harmed⟩, Or.inl hfate,
        fun hanswer => absurd hanswer hlast.1, fun hanswer => absurd hanswer hlast.2⟩
      all_goals
        rw [hstate]
        rintro ⟨⟩
  | recreating _ _ hawaits => exact absurd hempty (Awaits.ne_nil c hawaits)

/-- As long as no timer is late, the processing of the queue ends, and whenever the queue is
empty the coordinator holds what its state and its last answer say. -/
theorem run_quiescent (calls : TaskbarShell σ S W) (strategies : List S) (shell : σ)
    (moves : List (Move W))
    (hguarded : Guarded (step calls) Timely (construct strategies shell) moves) :
    let c := moves.foldl (step calls) (construct strategies shell)
    (c.events = [] → c.Quiescent) ∧
      ∀ budget, calls.RaisesFinitely budget →
        ∃ count, Guarded (step calls) Timely c (List.replicate count .process) →
          ((List.replicate count .process).foldl (step calls) c).events = [] := by
  have hcoherent := @GuardedRun.preserved _ _ (step calls) Timely Coherent
    (fun c move hcoherent htimely => step_coherent hcoherent move htimely) _ _
    (construct_coherent strategies shell) hguarded
  exact ⟨hcoherent.quiescent, fun budget hbudget => process_ends hbudget hcoherent⟩

/-! ## A late timer -/

/-- One answer of a shell that follows a script. -/
structure Answer where
  raised : List (Arrival Unit) := []
  readiness : Option AttachReadiness := some .ready
  attach : TaskbarLayoutStrategy.AttachResult := .attached
  release : DetachResult := .detached

/-- Takes every answer from the script, whatever is asked. -/
def scripted : TaskbarShell (List Answer) ℕ Unit where
  prepareAttach _ _ script := ⟨(script.headD {}).readiness, (script.headD {}).raised, script.tail⟩
  commit _ script := ⟨(script.headD {}).attach, (script.headD {}).raised, script.tail⟩
  finalize _ script := ⟨(script.headD {}).attach, (script.headD {}).raised, script.tail⟩
  rollback _ script := ⟨(script.headD {}).release, (script.headD {}).raised, script.tail⟩
  detach _ script := ⟨(script.headD {}).release, (script.headD {}).raised, script.tail⟩
  invalidate _ script := ⟨(script.headD {}).release, (script.headD {}).raised, script.tail⟩
  showWindow _ script := ⟨(), (script.headD {}).raised, script.tail⟩
  hideWindow _ script := ⟨(), (script.headD {}).raised, script.tail⟩
  recreateWindow script := ⟨some (), (script.headD {}).raised, script.tail⟩
  alive _ _ := true

def scriptedBudget (script : List Answer) : ℕ := (script.map (·.raised.length)).sum

theorem scripted_raisesFinitely : scripted.RaisesFinitely scriptedBudget := by
  intro script effect heffect
  have hscript : (script.headD {}).raised.length + scriptedBudget script.tail ≤
      scriptedBudget script := by
    cases script with
    | nil => exact Nat.le_refl _
    | cons answer rest => exact Nat.le_refl _
  cases heffect <;> exact hscript

/-- The coordinator with one strategy after some moves. -/
def scriptedRun (script : List Answer) (moves : List (Move Unit)) :
    TaskbarLayoutCoordinator (List Answer) ℕ Unit :=
  moves.foldl (step scripted) (construct [0] script)

/-- The moves that attach a window, as long as nothing is raised meanwhile. -/
def attaching : List (Move Unit) :=
  [.arrive (.prepareAttach (some ())), .process, .process, .arrive .activatePrepared, .process,
    .process]

theorem run_quiescent_attached :
    Quiescent (scriptedRun [] attaching) ∧
      ∃ count, Guarded (step scripted) Timely (scriptedRun [] attaching)
          (List.replicate count .process) →
        ((List.replicate count .process).foldl (step scripted)
          (scriptedRun [] attaching)).events = [] :=
  have hrun := run_quiescent scripted [0] [] attaching (by decide +kernel)
  ⟨hrun.1 (by decide +kernel), hrun.2 scriptedBudget scripted_raisesFinitely⟩

/-- A release that the host overtakes leaves an armed timer behind. -/
def overtakenRelease : List (Move Unit) :=
  [.arrive .detach, .process, .process, .arrive .timeout, .process, .process, .process]

/-- The host is lost while an attachment is released; while the next window is prepared, the
timer of that release fires among a request to release and another loss of the host.  The
completion of the first round then closes the second one, and in the end a transaction is
held that no state knows of. -/
theorem late_timer_keeps_transaction :
    let script : List Answer :=
      [{}, {}, {}, {}, {}, { raised := [.hostInvalidated] },
        { raised := [.detach, .hostInvalidated, .timeout], readiness := none },
        { raised := [.prepareAttach (some ()), .detach] },
        { raised := [.prepareAttach (some ())], readiness := none }]
    let c := scriptedRun script (attaching ++ overtakenRelease ++
      .arrive (.prepareAttach (some ())) :: List.replicate 13 .process)
    c.events = [] ∧ c.state = .detached ∧ c.attachment.isSome ∧ c.transaction.isSome ∧
      ¬c.Quiescent := by
  intro script c
  have hheld : c.events = [] ∧ c.state = .detached ∧ c.attachment.isSome ∧
      c.transaction.isSome := by
    decide +kernel
  refine ⟨hheld.1, hheld.2.1, hheld.2.2.1, hheld.2.2.2, fun hquiescent => ?_⟩
  have hnone := (hquiescent.detached hheld.2.1).1
  rw [hnone] at hheld
  cases hheld.2.2.1

end TaskbarLayoutCoordinator

end UwfManager
