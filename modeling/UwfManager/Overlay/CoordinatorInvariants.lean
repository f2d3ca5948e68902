import Mathlib.Algebra.GroupWithZero.Nat
import UwfManager.Overlay.CoordinatorDetaching

/-!
# Invariants of the coordinator

In every state the queue has a known shape: arrivals, and after them at most the result
of the operation that the state is about.  The event at the end of the queue tells what
is held.
-/

namespace UwfManager

open TaskbarLayoutStrategy (AttachReadiness DetachResult)

namespace TaskbarLayoutCoordinator

variable {σ S W : Type*} (c : TaskbarLayoutCoordinator σ S W) {calls : TaskbarShell σ S W}

/-! ## The shape of the queue -/

def Arrivals (events : List (Event W)) : Prop := ∀ event ∈ events, event.type.isArrival = true

/-- After some arrivals the queue ends with a result. -/
def Awaits (type : EventType) : Prop :=
  ∃ front last, c.events = front ++ [last] ∧ Arrivals front ∧ last.type = type

/-- Nothing follows the completion of a detachment. -/
def CompletionLast : Prop :=
  ∀ event ∈ c.events.dropLast, event.type ≠ .detachCompleted

/-- The events that go on with a detachment. -/
def EventType.wakes : EventType → Bool
  | detachDue | detachBlocked | detachCompleted => true
  | _ => false

/-- Something goes on with the detachment. -/
def Wakes : Prop :=
  c.asyncTimer.isSome ∨ ∃ event ∈ c.events, event.type.wakes = true

/-- The arrivals that wait and those that the shell can still raise. -/
def energy (budget : σ → ℕ) : ℕ := c.pendingArrivals + budget c.shell

theorem pendingResults_of_arrivals (hqueue : Arrivals c.events) : c.pendingResults = [] := by
  rw [pendingResults, List.filter_eq_nil_iff]
  intro type htype
  obtain ⟨event, hevent, rfl⟩ := List.mem_map.1 htype
  rw [hqueue event hevent]
  exact Bool.false_ne_true

theorem pendingResults_post {type : EventType} (hresult : type.isArrival = false)
    (windowDestroyed : Bool) :
    (c.post type windowDestroyed).pendingResults = c.pendingResults ++ [type] := by
  rw [pendingResults, pendingResults, post, List.map_append, List.filter_append]
  simp only [List.map_cons, List.map_nil, List.filter_cons, hresult, Bool.not_false, if_true,
    List.filter_nil]

theorem energy_post {type : EventType} (hresult : type.isArrival = false) (windowDestroyed : Bool)
    (budget : σ → ℕ) : (c.post type windowDestroyed).energy budget = c.energy budget := by
  have harrivals : (c.post type windowDestroyed).pendingArrivals = c.pendingArrivals := by
    rw [pendingArrivals, pendingArrivals, post, List.countP_append, List.countP_singleton,
      hresult, if_neg Bool.false_ne_true, Nat.add_zero]
  rw [energy, harrivals]
  rfl

theorem energy_post_le {first between : TaskbarLayoutCoordinator σ S W}
    (hframe : Frame calls first between) {type : EventType} (hresult : type.isArrival = false)
    (windowDestroyed : Bool) (budget : σ → ℕ) (hbudget : calls.RaisesFinitely budget) :
    (between.post type windowDestroyed).energy budget ≤ first.energy budget := by
  rw [energy_post _ hresult]
  exact hframe.finite budget hbudget

/-- After an operation that began among arrivals its result is at the end of the queue. -/
theorem Frame.awaits {first between : TaskbarLayoutCoordinator σ S W}
    (hframe : Frame calls first between) (hqueue : Arrivals first.events) (type : EventType)
    (windowDestroyed : Bool) : (between.post type windowDestroyed).Awaits type := by
  obtain ⟨raised, hevents, hraised⟩ := hframe.events
  refine ⟨first.events ++ raised,
    { type := type, nativeWindowDestroyed := windowDestroyed }, ?_, ?_, rfl⟩
  · rw [post, hevents]
  · intro event hevent
    exact (List.mem_append.1 hevent).elim (hqueue event) (hraised event)

theorem Awaits.ne_nil {type : EventType} (hawaits : c.Awaits type) : c.events ≠ [] := by
  obtain ⟨front, last, hevents, -, -⟩ := hawaits
  rw [hevents]
  exact List.concat_ne_nil last front

/-- The next event is an arrival, or the result at the end of the queue. -/
theorem Awaits.next {type : EventType} {event : Event W} {events : List (Event W)}
    (hawaits : c.Awaits type)
    (hevents : c.events = event :: events) :
    event.type.isArrival = true ∧
        Awaits ({ c with events := events } : TaskbarLayoutCoordinator σ S W) type ∨
      event.type = type ∧ events = [] := by
  obtain ⟨front, last, hqueue, hfront, hlast⟩ := hawaits
  rw [hevents] at hqueue
  cases front with
  | nil =>
      injection hqueue with hevent hrest
      exact Or.inr ⟨hevent ▸ hlast, hrest⟩
  | cons first rest =>
      injection hqueue with hevent hrest
      refine Or.inl ⟨?_, rest, last, hrest, ?_, hlast⟩
      · rw [hevent]
        exact hfront first List.mem_cons_self
      · exact fun other hother => hfront other (List.mem_cons_of_mem _ hother)

/-- Nothing follows a completion, also in the rest of the queue. -/
theorem CompletionLast.next {event : Event W} {events : List (Event W)}
    (hcompletion : c.CompletionLast) (hevents : c.events = event :: events) :
    (event.type = .detachCompleted → events = []) ∧
      CompletionLast ({ c with events := events } : TaskbarLayoutCoordinator σ S W) := by
  rw [CompletionLast, hevents] at hcompletion
  cases events with
  | nil => exact ⟨fun _ => rfl, by rintro _ ⟨⟩⟩
  | cons other rest =>
      rw [List.dropLast_cons_cons] at hcompletion
      refine ⟨fun hcompleted => absurd hcompleted (hcompletion event List.mem_cons_self), ?_⟩
      exact fun later hlater => hcompletion later (List.mem_cons_of_mem _ hlater)

theorem energy_next {event : Event W} {events : List (Event W)}
    (hevents : c.events = event :: events) (budget : σ → ℕ) :
    c.energy budget = ({ c with events := events } :
      TaskbarLayoutCoordinator σ S W).energy budget + if event.type.isArrival then 1 else 0 := by
  rw [energy, energy, pendingArrivals, pendingArrivals, hevents, List.countP_cons]
  exact Nat.add_right_comm _ _ _

theorem arrivals_not_completed {events : List (Event W)} (hqueue : Arrivals events) :
    ∀ event ∈ events, event.type ≠ .detachCompleted := by
  intro event hevent hcompleted
  have harrival := hqueue event hevent
  rw [hcompleted] at harrival
  cases harrival

theorem Awaits.not_completed {type : EventType} (hawaits : c.Awaits type)
    (htype : type ≠ .detachCompleted) : ∀ event ∈ c.events, event.type ≠ .detachCompleted := by
  obtain ⟨front, last, hevents, hfront, hlast⟩ := hawaits
  intro event hevent
  rw [hevents] at hevent
  rcases List.mem_append.1 hevent with hevent | hevent
  · exact arrivals_not_completed hfront event hevent
  · rw [List.mem_singleton.1 hevent, hlast]
    exact htype

variable [DecidableEq S]

/-! ## The measure of what is left to process -/

/-- What the processing of a result can still lead to.  Every turn of a retry makes do with
one strategy less. -/
def rank (state : State) (compatible : ℕ) : EventType → ℕ
  | .operationPrepared => if state = .repreparing then 8 * compatible + 5 else 1
  | .operationRetryPrepare | .operationRecreateActivation | .operationRecreatePrepare =>
      8 * compatible + 7
  | .windowRecreated =>
      if state = .recreatingForPrepare ∨ state = .recreatingForActivation then
        8 * compatible + 6
      else 1
  | .operationNeedsDetach => 4
  | .operationRecreateFailure | .operationRecreateIncompatible => 3
  | .detachCompleted => 2
  | _ => 1

def weight : ℕ := (c.pendingResults.map (rank c.state c.compatible)).sum

theorem weight_post {first between : TaskbarLayoutCoordinator σ S W}
    (hframe : Frame calls first between) (hqueue : Arrivals first.events) {type : EventType}
    (hresult : type.isArrival = false) (windowDestroyed : Bool) :
    (between.post type windowDestroyed).weight = rank first.state between.compatible type := by
  have hpending : (between.post type windowDestroyed).pendingResults = [type] := by
    rw [pendingResults_post _ hresult, hframe.pendingResults, pendingResults_of_arrivals _ hqueue,
      List.nil_append]
  calc (between.post type windowDestroyed).weight
      = ([type].map (rank between.state between.compatible)).sum := by rw [weight, hpending]; rfl
    _ = rank between.state between.compatible type := Nat.add_zero _
    _ = rank first.state between.compatible type := by rw [hframe.state]

theorem weight_of_empty (hevents : c.events = []) : c.weight = 0 := by
  rw [weight, pendingResults, hevents]
  rfl

theorem weight_next {event : Event W} {events : List (Event W)}
    (hevents : c.events = event :: events) (hresult : event.type.isArrival = false) :
    c.weight = ({ c with events := events } : TaskbarLayoutCoordinator σ S W).weight +
      rank c.state c.compatible event.type := by
  have hpending : c.pendingResults = event.type ::
      ({ c with events := events } : TaskbarLayoutCoordinator σ S W).pendingResults := by
    rw [pendingResults, pendingResults, hevents, List.map_cons, List.filter_cons, hresult]
    rfl
  rw [weight, weight, hpending, List.map_cons, List.sum_cons]
  exact Nat.add_comm _ _

/-! ## What is held -/

/-- The states of an operation. -/
def operatingStates : List State :=
  [.preparing, .recreatingForPrepare, .finalizing, .repreparing, .recreatingForActivation,
    .recreatingForFailure, .recreatingForIncompatible]

/-- The result of an operation is one that its state asks for. -/
def fits (state : State) (type : EventType) : Bool :=
  (reduce (W := Unit) state { type := type }).action ≠ .none

variable [DecidableEq W]

/-- What is held while the result of an operation waits at the end of the queue. -/
inductive Held (c : TaskbarLayoutCoordinator σ S W) : EventType → Prop
  | prepared {strategy : S} {window : W} (hready : c.Ready strategy window) :
      Held c .operationPrepared
  | attached (hattachment : c.attachment.isSome) (hfate : c.fate = .settled) :
      Held c .operationAttached
  | retained (hattachment : c.attachment.isSome) (htransaction : c.transaction = none)
      (hfate : c.fate = .settled) : Held c .operationRetained
  | ended {type : EventType}
      (htype : type ∈ [.operationTemporary, .operationIncompatible, .operationFailed,
        .operationRetryPrepare, .operationRecreatePrepare, .operationRecreateActivation,
        .operationRecreateFailure, .operationRecreateIncompatible, .windowRecreated,
        .windowRecreationFailed])
      (hattachment : c.attachment = none) (htransaction : c.transaction = none)
      (hfate : c.fate = .settled) : Held c type
  | needsDetach (hsecured : c.Secured) : Held c .operationNeedsDetach

/-- What is held in which state, and what waits in the queue. -/
inductive Coherent (c : TaskbarLayoutCoordinator σ S W) : Prop
  | detached (hstate : c.state = .detached) (hqueue : Arrivals c.events)
      (hattachment : c.attachment = none) (htransaction : c.transaction = none)
      (hrequest : c.request = none) (hdetaching : c.detaching = none)
      (hfate : c.fate = .settled)
      (hlast : c.lastAttachResult ≠ .prepared ∧ c.lastAttachResult ≠ .attached)
  | prepared {strategy : S} {window : W} (hstate : c.state = .prepared)
      (hqueue : Arrivals c.events) (hready : c.Ready strategy window)
      (hdetaching : c.detaching = none) (hlast : c.lastAttachResult ≠ .attached)
  | attached (hstate : c.state = .attached) (hqueue : Arrivals c.events)
      (hattachment : c.attachment.isSome) (htransaction : c.transaction = none)
      (hdetaching : c.detaching = none) (hfate : c.fate = .settled)
      (hlast : c.lastAttachResult ≠ .prepared)
  | operating {type : EventType} (hstate : c.state ∈ operatingStates) (hfits : fits c.state type = true)
      (hawaits : c.Awaits type) (hheld : c.Held type) (hdetaching : c.detaching = none)
  | detaching (hstate : c.state = .detaching) (hcompletion : c.CompletionLast)
      (hwakes : c.Wakes) (hcontext : c.detaching.isSome) (htransaction : c.transaction = none)
      (hfate : c.fate = .settled)
      (hlast : c.lastAttachResult ≠ .prepared ∧ c.lastAttachResult ≠ .attached)
  | recreating {type : EventType} (hstate : c.state = .recreatingAfterDetach)
      (htype : type ∈ [EventType.windowRecreated, .windowRecreationFailed])
      (hawaits : c.Awaits type) (hcontext : c.detaching.isSome)
      (htransaction : c.transaction = none) (hfate : c.fate = .settled)
      (hlast : c.lastAttachResult ≠ .prepared ∧ c.lastAttachResult ≠ .attached)

theorem Held.isArrival {type : EventType} (hheld : c.Held type) : type.isArrival = false := by
  cases hheld with
  | ended htype =>
      simp only [List.mem_cons, List.not_mem_nil, or_false] at htype
      rcases htype with rfl | rfl | rfl | rfl | rfl | rfl | rfl | rfl | rfl | rfl <;> rfl
  | _ => rfl

theorem secured_of_attached (hattachment : c.attachment.isSome) (hfate : c.fate = .settled) :
    c.Secured := by
  rw [Secured]
  cases c.transaction with
  | none => exact hfate
  | some strategy => exact ⟨_, Option.get_mem hattachment, Or.inl hfate⟩

/-- Whatever waits, a transaction is held with its window. -/
theorem Held.secured {type : EventType} (hheld : c.Held type) : c.Secured := by
  cases hheld with
  | prepared hready => exact hready.secured
  | attached hattachment hfate => exact secured_of_attached c hattachment hfate
  | retained _ htransaction hfate => exact secured_of_settled c htransaction hfate
  | ended _ _ htransaction hfate => exact secured_of_settled c htransaction hfate
  | needsDetach hsecured => exact hsecured

/-- The same is held, whatever else differs. -/
structure Alike (c other : TaskbarLayoutCoordinator σ S W) : Prop where
  attachment : other.attachment = c.attachment
  transaction : other.transaction = c.transaction
  preparedStrategy : other.preparedStrategy = c.preparedStrategy
  request : other.request = c.request
  strategies : other.strategies = c.strategies
  incompatible : other.processIncompatibleStrategies = c.processIncompatibleStrategies
  fate : other.fate = c.fate

variable {c} {other : TaskbarLayoutCoordinator σ S W}

theorem Alike.ready {strategy : S} {window : W} (halike : Alike c other)
    (hready : c.Ready strategy window) : other.Ready strategy window where
  attachment := halike.attachment.trans hready.attachment
  transaction := halike.transaction.trans hready.transaction
  preparedStrategy := halike.preparedStrategy.trans hready.preparedStrategy
  request := halike.request.trans hready.request
  mem := halike.strategies ▸ hready.mem
  compatible := by
    rw [isProcessIncompatible, halike.incompatible]
    exact hready.compatible
  fate := halike.fate ▸ hready.fate

theorem Alike.secured (halike : Alike c other) (hsecured : c.Secured) : other.Secured := by
  rw [Secured, halike.transaction, halike.attachment, halike.fate]
  exact hsecured

theorem Alike.held {type : EventType} (halike : Alike c other) (hheld : c.Held type) :
    other.Held type := by
  cases hheld with
  | prepared hready => exact .prepared (halike.ready hready)
  | attached hattachment hfate =>
      exact .attached (halike.attachment ▸ hattachment) (halike.fate.trans hfate)
  | retained hattachment htransaction hfate =>
      exact .retained (halike.attachment ▸ hattachment) (halike.transaction.trans htransaction)
        (halike.fate.trans hfate)
  | ended htype hattachment htransaction hfate =>
      exact .ended htype (halike.attachment.trans hattachment)
        (halike.transaction.trans htransaction) (halike.fate.trans hfate)
  | needsDetach hsecured => exact .needsDetach (halike.secured hsecured)

/-- The notifications and the scheduled refresh are no part of it. -/
theorem Coherent.notified (hcoherent : c.Coherent) (notifications : List DetachEvent)
    (scheduled : Bool) :
    Coherent ({ c with notifications := notifications, hostRefreshScheduled := scheduled } :
      TaskbarLayoutCoordinator σ S W) := by
  have halike : Alike c { c with
      notifications := notifications, hostRefreshScheduled := scheduled } :=
    ⟨rfl, rfl, rfl, rfl, rfl, rfl, rfl⟩
  cases hcoherent with
  | detached hstate hqueue hattachment htransaction hrequest hdetaching hfate hlast =>
      exact .detached hstate hqueue hattachment htransaction hrequest hdetaching hfate hlast
  | prepared hstate hqueue hready hdetaching hlast =>
      exact .prepared hstate hqueue (halike.ready hready) hdetaching hlast
  | attached hstate hqueue hattachment htransaction hdetaching hfate hlast =>
      exact .attached hstate hqueue hattachment htransaction hdetaching hfate hlast
  | operating hstate hfits hawaits hheld hdetaching =>
      exact .operating hstate hfits hawaits (halike.held hheld) hdetaching
  | detaching hstate hcompletion hwakes hcontext htransaction hfate hlast =>
      exact .detaching hstate hcompletion hwakes hcontext htransaction hfate hlast
  | recreating hstate htype hawaits hcontext htransaction hfate hlast =>
      exact .recreating hstate htype hawaits hcontext htransaction hfate hlast

variable (c)

/-! ## One operation -/

/-- What an operation leads to: its result waits, and no more can arrive than before. -/
structure Operated (calls : TaskbarShell σ S W) (before after : TaskbarLayoutCoordinator σ S W)
    (bound : ℕ) : Prop where
  coherent : after.Coherent
  energy : ∀ budget, calls.RaisesFinitely budget → after.energy budget ≤ before.energy budget
  weight : after.weight ≤ bound

/-- A result that its state asks for and that tells what is held ends an operation. -/
theorem operated_of_post {first between : TaskbarLayoutCoordinator σ S W}
    (hframe : Frame calls first between) (hqueue : Arrivals first.events)
    (hdetaching : first.detaching = none) (hstate : first.state ∈ operatingStates)
    {type : EventType} (hfits : fits first.state type = true) (hheld : between.Held type) {bound : ℕ}
    (hbound : rank first.state between.compatible type ≤ bound) :
    Operated calls first (between.post type false) bound where
  coherent := by
    refine .operating ?_ ?_ (hframe.awaits hqueue type false) ?_ ?_
    · change between.state ∈ operatingStates
      rw [hframe.state]
      exact hstate
    · change fits between.state type = true
      rw [hframe.state]
      exact hfits
    · have halike : Alike between (between.post type false) := ⟨rfl, rfl, rfl, rfl, rfl, rfl, rfl⟩
      exact halike.held hheld
    · exact hframe.detaching.trans hdetaching
  energy := energy_post_le hframe hheld.isArrival false
  weight := by
    rw [weight_post hframe hqueue hheld.isArrival]
    exact hbound

theorem PrepareResult.held {before after : TaskbarLayoutCoordinator σ S W} {type : EventType}
    (hresult : PrepareResult before after type) : after.Held type := by
  cases hresult with
  | prepared hready => exact .prepared hready
  | retained _ hattachment htransaction hfate => exact .retained hattachment htransaction hfate
  | ended htype hattachment htransaction hfate =>
      refine .ended ?_ hattachment htransaction hfate
      simp only [List.mem_cons, List.not_mem_nil, or_false] at htype ⊢
      tauto
  | retry hattachment htransaction hfate =>
      refine .ended ?_ hattachment htransaction hfate
      rw [recreateForRetry]
      split_ifs <;> simp
  | needsDetach _ htransaction hfate =>
      exact .needsDetach (secured_of_settled after htransaction hfate)

theorem PrepareResult.fits {before after : TaskbarLayoutCoordinator σ S W} {type : EventType}
    (hstate : before.state = .preparing ∨ before.state = .repreparing)
    (hresult : PrepareResult before after type) :
    TaskbarLayoutCoordinator.fits before.state type = true := by
  have hretry : TaskbarLayoutCoordinator.fits before.state before.recreateForRetry = true := by
    rw [recreateForRetry]
    rcases hstate with hstate | hstate <;> rw [hstate] <;> rfl
  cases hresult with
  | retry => exact hretry
  | ended htype =>
      simp only [List.mem_cons, List.not_mem_nil, or_false] at htype
      rcases hstate with hstate | hstate <;> rw [hstate] <;>
        rcases htype with rfl | rfl | rfl | rfl | rfl <;> rfl
  | _ => rcases hstate with hstate | hstate <;> rw [hstate] <;> rfl

/-- The rank of a result of `runPrepare` that began without an attachment. -/
theorem PrepareResult.rank_le {before after : TaskbarLayoutCoordinator σ S W} {type : EventType}
    (hresult : PrepareResult before after type) (hattachment : before.attachment = none)
    (hcompatible : after.compatible ≤ before.compatible) :
    rank before.state after.compatible type ≤ 8 * before.compatible + 5 := by
  cases hresult with
  | prepared =>
      rw [rank]
      split_ifs <;> omega
  | retained hbefore =>
      rw [hattachment] at hbefore
      cases hbefore
  | ended htype =>
      simp only [List.mem_cons, List.not_mem_nil, or_false] at htype
      rcases htype with rfl | rfl | rfl | rfl | rfl <;> simp only [rank] <;> omega
  | retry _ _ _ hfewer =>
      have hlt := hfewer hattachment
      have hrank : rank before.state after.compatible before.recreateForRetry =
          8 * after.compatible + 7 := by
        rw [recreateForRetry]
        split_ifs <;> rfl
      omega
  | needsDetach =>
      simp only [rank]
      omega

/-- `runPrepare` ends an operation. -/
theorem runPrepare_operated (hstate : c.state = .preparing ∨ c.state = .repreparing)
    (hqueue : Arrivals c.events) (hdetaching : c.detaching = none)
    (htransaction : c.transaction = none) (hfate : c.fate = .settled) :
    ∃ bound, Operated calls c (c.runPrepare calls) bound ∧
      (c.attachment = none → bound = 8 * c.compatible + 5) := by
  obtain ⟨between, type, hposted, hprepared⟩ := @runPrepare_spec σ S W _ c calls _ htransaction hfate
  rw [hposted]
  have hmem : c.state ∈ operatingStates := by
    rcases hstate with hstate | hstate <;> rw [hstate] <;> decide
  have hoperated := fun bound hbound => @operated_of_post σ S W calls _ _ c between hprepared.frame
    hqueue hdetaching hmem type (hprepared.result.fits hstate) hprepared.result.held bound hbound
  by_cases hattachment : c.attachment = none
  · exact ⟨_, hoperated _ (hprepared.result.rank_le hattachment hprepared.compatible), fun _ => rfl⟩
  · exact ⟨_, hoperated _ (Nat.le_refl _), fun hnone => absurd hnone hattachment⟩

theorem FinalizeResult.held {before after : TaskbarLayoutCoordinator σ S W} {type : EventType}
    (hresult : FinalizeResult before after type) : after.Held type := by
  cases hresult with
  | attached hattachment hfate => exact .attached hattachment hfate
  | ended htype hattachment htransaction hfate =>
      refine .ended ?_ hattachment htransaction hfate
      simp only [List.mem_cons, List.not_mem_nil, or_false] at htype ⊢
      tauto
  | retry htype hattachment htransaction hfate =>
      refine .ended ?_ hattachment htransaction hfate
      simp only [List.mem_cons, List.not_mem_nil, or_false] at htype ⊢
      tauto
  | needsDetach hsecured => exact .needsDetach hsecured

/-- `runFinalize` ends an operation. -/
theorem runFinalize_operated {strategy : S} {window : W} (hstate : c.state = .finalizing)
    (hqueue : Arrivals c.events) (hdetaching : c.detaching = none)
    (hready : c.Ready strategy window) :
    Operated calls c (c.runFinalize calls) (8 * c.compatible + 4) := by
  obtain ⟨between, type, hposted, hfinalized⟩ := @runFinalize_spec σ S W _ c calls _ _ _ hready
  rw [hposted]
  have hresult : fits c.state type = true ∧
      rank c.state between.compatible type ≤ 8 * c.compatible + 4 := by
    rw [hstate]
    cases hfinalized.result with
    | attached => exact ⟨rfl, by simp only [rank]; omega⟩
    | ended htype =>
        simp only [List.mem_cons, List.not_mem_nil, or_false] at htype
        rcases htype with rfl | rfl | rfl | rfl | rfl <;>
          exact ⟨rfl, by simp only [rank]; omega⟩
    | retry htype _ _ _ hfewer =>
        simp only [List.mem_cons, List.not_mem_nil, or_false] at htype
        rcases htype with rfl | rfl <;> exact ⟨rfl, by simp only [rank]; omega⟩
    | needsDetach => exact ⟨rfl, by simp only [rank]; omega⟩
  have hmem : c.state ∈ operatingStates := by
    rw [hstate]
    decide
  exact operated_of_post hfinalized.frame hqueue hdetaching hmem hresult.1
    hfinalized.result.held hresult.2

/-- The states in which a new window is asked for before the detachment of nothing. -/
def recreatingStates : List State :=
  [.recreatingForPrepare, .recreatingForActivation, .recreatingForFailure,
    .recreatingForIncompatible]

/-- `recreateWindow` ends an operation. -/
theorem recreateWindow_operated (hstate : c.state ∈ recreatingStates) (hqueue : Arrivals c.events)
    (hdetaching : c.detaching = none) (hattachment : c.attachment = none)
    (htransaction : c.transaction = none) (hfate : c.fate = .settled) :
    Operated calls c (c.recreateWindow calls) (rank c.state c.compatible .windowRecreated) := by
  obtain ⟨between, type, hposted, htype, hundisturbed⟩ := @recreateWindow_spec σ S W _ c calls _
  rw [hposted]
  have hheld : between.Held type := by
    refine .ended ?_ (hundisturbed.attachment.trans hattachment)
      (hundisturbed.transaction.trans htransaction) (hundisturbed.fate.trans hfate)
    simp only [List.mem_cons, List.not_mem_nil, or_false] at htype ⊢
    tauto
  have hfits : fits c.state type = true := by
    simp only [List.mem_cons, List.not_mem_nil, or_false] at htype
    simp only [recreatingStates, List.mem_cons, List.not_mem_nil, or_false] at hstate
    rcases htype with rfl | rfl <;> rcases hstate with hstate | hstate | hstate | hstate <;>
      rw [hstate] <;> rfl
  have hmem : c.state ∈ operatingStates := by
    simp only [recreatingStates, operatingStates, List.mem_cons, List.not_mem_nil, or_false]
      at hstate ⊢
    tauto
  refine operated_of_post hundisturbed.frame hqueue hdetaching hmem hfits hheld ?_
  rw [hundisturbed.compatible]
  simp only [List.mem_cons, List.not_mem_nil, or_false] at htype
  rcases htype with rfl | rfl
  · exact Nat.le_refl _
  · simp only [rank]
    split_ifs <;> omega

/-- The beginning of a detachment posts its first event behind all that waits. -/
theorem beginDetaching_operated (hstate : c.state = .detaching) (hsecured : c.Secured)
    (hcompletion : ∀ event ∈ c.events, event.type ≠ .detachCompleted) (cause : DetachmentCause) :
    Operated calls c (c.beginDetaching calls cause) (c.weight + 2) := by
  obtain ⟨between, context, hbegun, hposted⟩ := @beginDetaching_spec σ S W _ c calls _ hsecured cause
  rw [hposted]
  obtain ⟨hframe, htransaction, hfate, hcompatible, -, -, -⟩ := hbegun
  set posted : EventType :=
    if context.strategies.isEmpty then .detachCompleted else .detachBlocked with hpostedType
  have htype : posted = .detachCompleted ∨ posted = .detachBlocked := by
    rw [hpostedType]
    split_ifs
    · exact Or.inl rfl
    · exact Or.inr rfl
  have hresult : posted.isArrival = false := by
    rcases htype with htype | htype <;> rw [htype] <;> rfl
  set begun : TaskbarLayoutCoordinator σ S W :=
    ({ between with preparedStrategy := none, detaching := some context } :
      TaskbarLayoutCoordinator σ S W).announce cause with hbegun
  have hsame : begun.state = between.state ∧ begun.events = between.events ∧
      begun.detaching = some context ∧ begun.transaction = between.transaction ∧
      begun.lastAttachResult = between.lastAttachResult ∧
      begun.compatible = between.compatible ∧ begun.shell = between.shell := by
    rw [hbegun, announce_eq]
    exact ⟨rfl, rfl, rfl, rfl, rfl, rfl, rfl⟩
  have hfate' : begun.fate = between.fate := announce_fate _ cause
  obtain ⟨hstate', hevents, hcontext, htransaction', hlast, hcompatible', hshell⟩ := hsame
  have hbetween : between.state = .detaching := hframe.state.trans hstate
  obtain ⟨raised, hraised, harrivals⟩ := hframe.events
  refine ⟨.detaching (hstate'.trans hbetween) ?_ ?_ ?_ (htransaction'.trans htransaction)
    (hfate'.trans hfate) ?_, ?_, ?_⟩
  · intro event hevent
    rw [post, hevents, hraised, List.dropLast_concat] at hevent
    rcases List.mem_append.1 hevent with hevent | hevent
    · exact hcompletion event hevent
    · intro hcompleted
      have harrival := harrivals event hevent
      rw [hcompleted] at harrival
      cases harrival
  · refine Or.inr ⟨_, List.mem_append_right _ (List.mem_singleton_self _), ?_⟩
    rcases htype with htype | htype <;> rw [htype] <;> rfl
  · exact Option.isSome_of_mem hcontext
  · change begun.lastAttachResult ≠ _ ∧ begun.lastAttachResult ≠ _
    rw [hlast]
    rcases hframe.lastAttachResult with hsame | hfailed
    · rw [hsame]
      exact ⟨by rintro ⟨⟩, by rintro ⟨⟩⟩
    · rw [hfailed]
      exact ⟨by rintro ⟨⟩, by rintro ⟨⟩⟩
  · intro budget hbudget
    have henergy : begun.energy budget = between.energy budget := by
      rw [energy, energy, pendingArrivals, pendingArrivals, hevents, hshell]
    rw [energy_post _ hresult, henergy]
    exact hframe.finite budget hbudget
  · have hpending : (begun.post posted (context.disposition = .destroyed)).pendingResults =
        c.pendingResults ++ [posted] := by
      rw [pendingResults_post _ hresult, pendingResults, hevents]
      exact congrArg (· ++ [posted]) hframe.pendingResults
    have hstate'' : (begun.post posted (context.disposition = .destroyed)).state = c.state :=
      (hstate'.trans hbetween).trans hstate.symm
    have hcount : (begun.post posted (context.disposition = .destroyed)).compatible = c.compatible :=
      hcompatible'.trans hcompatible
    rw [weight, hpending, hstate'', hcount, List.map_append, List.sum_append]
    have hrank : ([posted].map (rank c.state c.compatible)).sum ≤ 2 := by
      rcases htype with htype | htype <;> rw [htype] <;> simp [rank]
    exact Nat.add_le_add_left hrank _

end TaskbarLayoutCoordinator

end UwfManager
