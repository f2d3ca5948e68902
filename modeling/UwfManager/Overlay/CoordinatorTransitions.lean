import UwfManager.Overlay.CoordinatorRuns

/-!
# What one event can do

One case for each way in which an event of the queue changes what waits, what runs and
what is told to the observer.
-/

namespace UwfManager

namespace TaskbarLayoutCoordinator

variable {σ S W : Type*}

/-- The states with a detachment under way. -/
def detachingStates : List State := [.detaching, .recreatingAfterDetach]

/-- Only the state and what is held can differ. -/
structure Kept (before after : TaskbarLayoutCoordinator σ S W) : Prop where
  events : after.events = before.events
  asyncTimer : after.asyncTimer = before.asyncTimer
  detaching : after.detaching = before.detaching
  log : after.log = before.log
  strategies : after.strategies = before.strategies

theorem Kept.refl (c : TaskbarLayoutCoordinator σ S W) : Kept c c := ⟨rfl, rfl, rfl, rfl, rfl⟩

variable [DecidableEq S] [DecidableEq W] {calls : TaskbarShell σ S W}
  {c : TaskbarLayoutCoordinator σ S W} {event : Event W}

/-- The ways of an event that is taken from the queue. -/
inductive Handled (calls : TaskbarShell σ S W) (c : TaskbarLayoutCoordinator σ S W)
    (event : Event W) : TaskbarLayoutCoordinator σ S W → Prop
  /-- Nothing is called: the event is ignored, or an operation is told its result. -/
  | kept {after : TaskbarLayoutCoordinator σ S W} (hkept : Kept c after)
      (hstate : after.state = c.state ∨
        c.state ∉ detachingStates ∧ after.state ∉ detachingStates ∧ c.events = [])
      (hhost : event.type = .hostInvalidated → c.state = .recreatingAfterDetach)
      (hwakes : event.type.wakes = true → c.state ≠ .detaching) : Handled calls c event after
  /-- An operation of its own ends with its result. -/
  | operated {first between : TaskbarLayoutCoordinator σ S W} {type : EventType}
      (hkept : Kept c first) (hframe : Frame calls first between)
      (hstate : c.state ∉ detachingStates) (hfirst : first.state ∈ operatingStates)
      (hhost : event.type ≠ .hostInvalidated) (htype : type.wakes = false)
      (hresult : type.isArrival = false) : Handled calls c event (between.post type false)
  | begun {cause : DetachmentCause} {between : TaskbarLayoutCoordinator σ S W}
      {context : DetachingContext S W} (hstate : c.state ∉ detachingStates)
      (hbegun : Begun calls { c with state := .detaching } cause between context)
      (hhost : event.type = .hostInvalidated → cause = .hostInvalidated) :
      Handled calls c event
        ((({ between with preparedStrategy := none, detaching := some context } :
          TaskbarLayoutCoordinator σ S W).announce cause).post
            (if context.strategies.isEmpty then .detachCompleted else .detachBlocked)
            (context.disposition = .destroyed))
  | escalated (hstate : c.state = .detaching) (htype : event.type = .hostInvalidated) :
      Handled calls c event c.escalateDetaching
  | scheduled (hstate : c.state = .detaching) (htype : event.type = .detachBlocked) :
      Handled calls c event { c with asyncTimer := some 0 }
  | advanced (hstate : c.state = .detaching) (htype : event.type = .detachDue) :
      Handled calls c event (c.advanceDetaching calls)
  | recreated {between : TaskbarLayoutCoordinator σ S W} {type : EventType}
      (hstate : c.state = .detaching) (hcompleted : event.type = .detachCompleted)
      (hframe : Frame calls { c with state := .recreatingAfterDetach } between)
      (htype : type ∈ [EventType.windowRecreated, .windowRecreationFailed]) :
      Handled calls c event (between.post type false)
  | finished (hstate : c.state = .detaching ∧ event.type = .detachCompleted ∨
        c.state = .recreatingAfterDetach ∧
          event.type ∈ [EventType.windowRecreated, .windowRecreationFailed]) :
      Handled calls c event
        ({ c with state := .detached } : TaskbarLayoutCoordinator σ S W).finishDetaching
  | refreshed (hstate : c.state = .detached) (htype : event.type = .hostInvalidated) :
      Handled calls c event c.scheduleDetachedHostRefresh

theorem handled_of_reduce {state : State} {action : Action}
    (hreduce : reduce c.state event = ⟨state, action⟩)
    (hhandled : Handled calls c event ({ c with state := state }.execute calls action event)) :
    Handled calls c event (c.handle calls event) := by
  rw [handle, hreduce]
  exact hhandled

/-- An event that its state ignores. -/
theorem handled_ignored (hreduce : reduce c.state event = ⟨c.state, .none⟩)
    (hhost : event.type = .hostInvalidated → c.state = .recreatingAfterDetach)
    (hwakes : event.type.wakes = true → c.state ≠ .detaching) :
    Handled calls c event (c.handle calls event) :=
  handled_of_reduce hreduce (.kept (Kept.refl c) (Or.inl rfl) hhost hwakes)

theorem Held.wakes {type : EventType} (hheld : c.Held type) : type.wakes = false := by
  cases hheld with
  | ended htype =>
      simp only [List.mem_cons, List.not_mem_nil, or_false] at htype
      rcases htype with rfl | rfl | rfl | rfl | rfl | rfl | rfl | rfl | rfl | rfl <;> rfl
  | _ => rfl

/-- An operation that tells what is held. -/
theorem handled_operated {first between : TaskbarLayoutCoordinator σ S W} {type : EventType}
    (hkept : Kept c first) (hframe : Frame calls first between)
    (hstate : c.state ∉ detachingStates) (hfirst : first.state ∈ operatingStates)
    (hhost : event.type ≠ .hostInvalidated) (hheld : between.Held type) :
    Handled calls c event (between.post type false) :=
  .operated hkept hframe hstate hfirst hhost (Held.wakes hheld) (Held.isArrival _ hheld)

theorem handled_prepare {request : Option (AttachRequest W)} {state : State}
    (hstate : c.state ∉ detachingStates) (hnext : state = .preparing ∨ state = .repreparing)
    (htransaction : c.transaction = none) (hfate : c.fate = .settled)
    (hhost : event.type ≠ .hostInvalidated) :
    Handled calls c event (({ c with state := state, request := request } :
      TaskbarLayoutCoordinator σ S W).runPrepare calls) := by
  obtain ⟨between, type, hposted, hprepared⟩ := @runPrepare_spec σ S W _
    { c with state := state, request := request } calls _ htransaction hfate
  rw [hposted]
  have hkept : Kept c { c with state := state, request := request } := ⟨rfl, rfl, rfl, rfl, rfl⟩
  have hfirst : state ∈ operatingStates := by
    rcases hnext with rfl | rfl <;> decide
  exact handled_operated hkept hprepared.frame hstate hfirst hhost hprepared.result.held

theorem handled_finalize {strategy : S} {window : W} (hstate : c.state ∉ detachingStates)
    (hready : c.Ready strategy window) (hhost : event.type ≠ .hostInvalidated) :
    Handled calls c event (({ c with state := .finalizing } :
      TaskbarLayoutCoordinator σ S W).runFinalize calls) := by
  have halike : Alike c { c with state := .finalizing } := ⟨rfl, rfl, rfl, rfl, rfl, rfl, rfl⟩
  obtain ⟨between, type, hposted, hfinalized⟩ := @runFinalize_spec σ S W _
    { c with state := .finalizing } calls _ strategy window (halike.ready hready)
  rw [hposted]
  have hkept : Kept c { c with state := .finalizing } := ⟨rfl, rfl, rfl, rfl, rfl⟩
  have hfirst : State.finalizing ∈ operatingStates := by decide
  exact handled_operated hkept hfinalized.frame hstate hfirst hhost hfinalized.result.held

/-- A detachment that begins. -/
theorem handled_begin (hactive : c.state ∈ activeStates) (hsecured : c.Secured)
    {cause : DetachmentCause} (hhost : event.type = .hostInvalidated → cause = .hostInvalidated) :
    Handled calls c event (({ c with state := .detaching } :
      TaskbarLayoutCoordinator σ S W).beginDetaching calls cause) := by
  obtain ⟨between, context, hbegun, hposted⟩ := @beginDetaching_spec σ S W _
    { c with state := .detaching } calls _ hsecured cause
  rw [hposted]
  refine .begun ?_ hbegun hhost
  intro hdetaching
  simp only [activeStates, detachingStates, List.mem_cons, List.not_mem_nil, or_false]
    at hactive hdetaching
  rcases hdetaching with hstate | hstate <;> rw [hstate] at hactive <;> revert hactive <;> decide

theorem handled_release (hactive : c.state ∈ activeStates) (hsecured : c.Secured)
    (hrelease : event.type = .detachRequested ∨ event.type = .hostInvalidated) :
    Handled calls c event (c.handle calls event) := by
  obtain ⟨type, windowDestroyed, request⟩ := event
  obtain ⟨huser, hhost⟩ := reduce_release hactive windowDestroyed request
  simp only at hrelease
  rcases hrelease with rfl | rfl
  · exact handled_of_reduce huser (handled_begin hactive hsecured (by rintro ⟨⟩))
  · exact handled_of_reduce hhost (handled_begin hactive hsecured fun _ => rfl)

/-- An operation that is told its result holds on to it, ends or goes on. -/
theorem handled_result (hstate : c.state ∈ operatingStates) (hempty : c.events = [])
    (hfits : fits c.state event.type = true) (hheld : c.Held event.type) :
    Handled calls c event (c.handle calls event) := by
  have hidle : c.state ∉ detachingStates := by
    simp only [operatingStates, detachingStates, List.mem_cons, List.not_mem_nil, or_false]
      at hstate ⊢
    rcases hstate with hstate | hstate | hstate | hstate | hstate | hstate | hstate <;>
      rw [hstate] <;> decide
  have hhost : event.type ≠ .hostInvalidated := by
    intro hhost
    have harrival := Held.isArrival c hheld
    rw [hhost] at harrival
    cases harrival
  have hkept : ∀ state ∉ detachingStates, ∀ after : TaskbarLayoutCoordinator σ S W, Kept c after →
      after.state = state → Handled calls c event after :=
    fun state hnext after hkept hafter => .kept hkept (Or.inr ⟨hidle, hafter ▸ hnext, hempty⟩)
      (fun htype => absurd htype hhost) (fun _ hdetaching => hidle (hdetaching ▸ by decide))
  obtain ⟨type, windowDestroyed, request⟩ := event
  simp only at hfits hheld
  cases hheld with
  | @prepared strategy window hready =>
      rcases reduce_prepared hstate windowDestroyed request hfits with hreduce | hreduce
      · exact handled_of_reduce hreduce (hkept .prepared (by decide) _ ⟨rfl, rfl, rfl, rfl, rfl⟩ rfl)
      · exact handled_of_reduce hreduce (handled_finalize hidle hready hhost)
  | attached =>
      exact handled_of_reduce (reduce_attached hstate windowDestroyed request hfits)
        (hkept .attached (by decide) _ ⟨rfl, rfl, rfl, rfl, rfl⟩ rfl)
  | retained =>
      exact handled_of_reduce (reduce_retained hstate windowDestroyed request hfits)
        (hkept .attached (by decide) _ ⟨rfl, rfl, rfl, rfl, rfl⟩ rfl)
  | ended htype hattachment htransaction hfate =>
      obtain ⟨next, action, hreduce, hnext⟩ := reduce_ended hstate htype hfits windowDestroyed
        request c.compatible
      rcases hnext with ⟨rfl, haction⟩ | ⟨hnext, rfl, -⟩ | ⟨hnext, rfl, -⟩
      · simp only [List.mem_cons, List.not_mem_nil, or_false] at haction
        rcases haction with rfl | rfl | rfl <;>
          exact handled_of_reduce hreduce
            (hkept .detached (by decide) _ ⟨rfl, rfl, rfl, rfl, rfl⟩ rfl)
      · obtain ⟨between, posted, hposted, hposts, hundisturbed⟩ :=
          @recreateWindow_spec σ S W _ { c with state := next } calls _
        have hfirst : next ∈ operatingStates := by
          simp only [recreatingStates, operatingStates, List.mem_cons, List.not_mem_nil, or_false]
            at hnext ⊢
          tauto
        refine handled_of_reduce hreduce ?_
        change Handled calls c _ (({ c with state := next } :
          TaskbarLayoutCoordinator σ S W).recreateWindow calls)
        rw [hposted]
        have hsame : Kept c { c with state := next } := ⟨rfl, rfl, rfl, rfl, rfl⟩
        simp only [List.mem_cons, List.not_mem_nil, or_false] at hposts
        rcases hposts with rfl | rfl <;>
          exact .operated hsame hundisturbed.frame hidle hfirst hhost rfl rfl
      · exact handled_of_reduce hreduce (handled_prepare hidle hnext htransaction hfate hhost)
  | needsDetach hsecured =>
      have hactive : c.state ∈ activeStates := by
        simp only [operatingStates, activeStates, List.mem_cons, List.not_mem_nil, or_false]
          at hstate ⊢
        tauto
      exact handled_of_reduce (reduce_needsDetach hstate windowDestroyed request hfits)
        (handled_begin hactive hsecured (by rintro ⟨⟩))

/-- A request is taken on while nothing is held; a lost host is only passed on. -/
theorem handled_detached (harrival : event.type.isArrival = true) (hstate : c.state = .detached)
    (htransaction : c.transaction = none) (hfate : c.fate = .settled) :
    Handled calls c event (c.handle calls event) := by
  have hidle : c.state ∉ detachingStates := by
    rw [hstate]
    decide
  have hwakes : event.type.wakes = true → c.state ≠ .detaching := by
    rw [hstate]
    rintro _ ⟨⟩
  obtain ⟨type, windowDestroyed, request⟩ := event
  cases type with
  | acquireRequested =>
      have hreduce : reduce c.state (⟨.acquireRequested, windowDestroyed, request⟩ : Event W) =
          ⟨.preparing, .acceptRequest⟩ := by rw [hstate]; rfl
      exact handled_of_reduce hreduce
        (handled_prepare hidle (Or.inl rfl) htransaction hfate (by rintro ⟨⟩))
  | activateRequested =>
      have hreduce : reduce c.state (⟨.activateRequested, windowDestroyed, request⟩ : Event W) =
          ⟨.detached, .completeFailed⟩ := by rw [hstate]; rfl
      refine handled_of_reduce hreduce (.kept ⟨rfl, rfl, rfl, rfl, rfl⟩ (Or.inl hstate.symm)
        (by rintro ⟨⟩) hwakes)
  | hostInvalidated =>
      have hreduce : reduce c.state (⟨.hostInvalidated, windowDestroyed, request⟩ : Event W) =
          ⟨c.state, .notifyDetachedHostRefresh⟩ := by rw [hstate]; rfl
      exact handled_of_reduce hreduce (.refreshed hstate rfl)
  | detachRequested => exact handled_ignored (by rw [hstate]; rfl) (by rintro ⟨⟩) hwakes
  | detachDue => exact handled_ignored (by rw [hstate]; rfl) (by rintro ⟨⟩) hwakes
  | _ => cases harrival

/-- In an active state what is held is released on request; all else depends on the state. -/
theorem handled_active (harrival : event.type.isArrival = true) (hactive : c.state ∈ activeStates)
    (hsecured : c.Secured)
    (hacquired : event.type = .acquireRequested → Handled calls c event (c.handle calls event))
    (hactivated : event.type = .activateRequested → Handled calls c event (c.handle calls event)) :
    Handled calls c event (c.handle calls event) := by
  have hrelease := @handled_release σ S W _ _ calls c event hactive hsecured
  simp only [activeStates, List.mem_cons, List.not_mem_nil, or_false] at hactive
  obtain ⟨type, windowDestroyed, request⟩ := event
  cases type with
  | acquireRequested => exact hacquired rfl
  | activateRequested => exact hactivated rfl
  | detachRequested => exact hrelease (Or.inl rfl)
  | hostInvalidated => exact hrelease (Or.inr rfl)
  | detachDue =>
      refine handled_ignored ?_ (by rintro ⟨⟩) ?_
      · rcases hactive with hstate | hstate | hstate | hstate | hstate | hstate | hstate | hstate |
          hstate <;> rw [hstate] <;> rfl
      · intro _ hdetaching
        rw [hdetaching] at hactive
        revert hactive
        decide
  | _ => cases harrival

theorem handled_prepared (harrival : event.type.isArrival = true) (hstate : c.state = .prepared)
    {strategy : S} {window : W} (hready : c.Ready strategy window) :
    Handled calls c event (c.handle calls event) := by
  refine handled_active harrival (by rw [hstate]; decide) hready.secured ?_ ?_
  · intro htype
    obtain ⟨type, windowDestroyed, request⟩ := event
    simp only at htype
    subst htype
    exact handled_ignored (by rw [hstate]; rfl) (by rintro ⟨⟩) (by rintro ⟨⟩)
  · intro htype
    obtain ⟨type, windowDestroyed, request⟩ := event
    simp only at htype
    subst htype
    have hreduce : reduce c.state (⟨.activateRequested, windowDestroyed, request⟩ : Event W) =
        ⟨.finalizing, .finalize⟩ := by rw [hstate]; rfl
    exact handled_of_reduce hreduce (handled_finalize (by rw [hstate]; decide) hready (by rintro ⟨⟩))

theorem handled_attached (harrival : event.type.isArrival = true) (hstate : c.state = .attached)
    (htransaction : c.transaction = none) (hfate : c.fate = .settled) :
    Handled calls c event (c.handle calls event) := by
  have hidle : c.state ∉ detachingStates := by
    rw [hstate]
    decide
  refine handled_active harrival (by rw [hstate]; decide)
    (secured_of_settled c htransaction hfate) ?_ ?_
  · intro htype
    obtain ⟨type, windowDestroyed, request⟩ := event
    simp only at htype
    subst htype
    have hreduce : reduce c.state (⟨.acquireRequested, windowDestroyed, request⟩ : Event W) =
        ⟨.preparing, .acceptRequest⟩ := by rw [hstate]; rfl
    exact handled_of_reduce hreduce
      (handled_prepare hidle (Or.inl rfl) htransaction hfate (by rintro ⟨⟩))
  · intro htype
    obtain ⟨type, windowDestroyed, request⟩ := event
    simp only at htype
    subst htype
    have hreduce : reduce c.state (⟨.activateRequested, windowDestroyed, request⟩ : Event W) =
        ⟨.attached, .completeAttached⟩ := by rw [hstate]; rfl
    exact handled_of_reduce hreduce (.kept ⟨rfl, rfl, rfl, rfl, rfl⟩ (Or.inl hstate.symm)
      (by rintro ⟨⟩) (by rintro ⟨⟩))

/-- While an operation is under way it can only be broken off. -/
theorem handled_operating (harrival : event.type.isArrival = true)
    (hstate : c.state ∈ operatingStates) (hsecured : c.Secured) :
    Handled calls c event (c.handle calls event) := by
  have hactive : c.state ∈ activeStates := by
    simp only [operatingStates, activeStates, List.mem_cons, List.not_mem_nil, or_false]
      at hstate ⊢
    tauto
  have hignored := fun windowDestroyed request =>
    @reduce_operating W _ hstate windowDestroyed request
  refine handled_active harrival hactive hsecured ?_ ?_
  all_goals
    intro htype
    obtain ⟨type, windowDestroyed, request⟩ := event
    simp only at htype
    subst htype
    exact handled_ignored (hignored windowDestroyed request _ (by simp)) (by rintro ⟨⟩) (by rintro ⟨⟩)

/-- Every event that a detachment can meet. -/
theorem handled_detaching (hstate : c.state = .detaching) :
    Handled calls c event (c.handle calls event) := by
  have hkept : ∀ after : TaskbarLayoutCoordinator σ S W, Kept c after → after.state = c.state →
      event.type ≠ .hostInvalidated → event.type.wakes = false → Handled calls c event after :=
    fun after hkept hafter hhost hstill => .kept hkept (Or.inl hafter)
      (fun htype => absurd htype hhost) fun hwakes => by rw [hstill] at hwakes; cases hwakes
  obtain ⟨type, windowDestroyed, request⟩ := event
  cases type with
  | acquireRequested =>
      have hreduce : reduce c.state (⟨.acquireRequested, windowDestroyed, request⟩ : Event W) =
          ⟨c.state, .completeReleaseStatus⟩ := by rw [hstate]; rfl
      exact handled_of_reduce hreduce (hkept _ ⟨rfl, rfl, rfl, rfl, rfl⟩ rfl (by rintro ⟨⟩) rfl)
  | activateRequested =>
      have hreduce : reduce c.state (⟨.activateRequested, windowDestroyed, request⟩ : Event W) =
          ⟨c.state, .completeReleaseStatus⟩ := by rw [hstate]; rfl
      exact handled_of_reduce hreduce (hkept _ ⟨rfl, rfl, rfl, rfl, rfl⟩ rfl (by rintro ⟨⟩) rfl)
  | hostInvalidated =>
      have hreduce : reduce c.state (⟨.hostInvalidated, windowDestroyed, request⟩ : Event W) =
          ⟨c.state, .escalateHostDetach⟩ := by rw [hstate]; rfl
      exact handled_of_reduce hreduce (.escalated hstate rfl)
  | detachDue =>
      have hreduce : reduce c.state (⟨.detachDue, windowDestroyed, request⟩ : Event W) =
          ⟨c.state, .advanceDetach⟩ := by rw [hstate]; rfl
      exact handled_of_reduce hreduce (.advanced hstate rfl)
  | detachBlocked =>
      have hreduce : reduce c.state (⟨.detachBlocked, windowDestroyed, request⟩ : Event W) =
          ⟨c.state, .scheduleDetach⟩ := by rw [hstate]; rfl
      exact handled_of_reduce hreduce (.scheduled hstate rfl)
  | detachCompleted =>
      cases windowDestroyed with
      | false =>
          have hreduce : reduce c.state (⟨.detachCompleted, false, request⟩ : Event W) =
              ⟨.detached, .completeDetach⟩ := by rw [hstate]; rfl
          exact handled_of_reduce hreduce (.finished (Or.inl ⟨hstate, rfl⟩))
      | true =>
          have hreduce : reduce c.state (⟨.detachCompleted, true, request⟩ : Event W) =
              ⟨.recreatingAfterDetach, .recreateDetachedWindow⟩ := by rw [hstate]; rfl
          refine handled_of_reduce hreduce ?_
          obtain ⟨between, type, hposted, htype, hundisturbed⟩ := @recreateDetachedWindow_spec σ S W
            _ { c with state := .recreatingAfterDetach } calls _
          change Handled calls c _ (({ c with state := .recreatingAfterDetach } :
            TaskbarLayoutCoordinator σ S W).recreateDetachedWindow calls)
          rw [hposted]
          exact .recreated hstate rfl hundisturbed.frame htype
  | _ => exact handled_ignored (by rw [hstate]; rfl) (by rintro ⟨⟩) (by rintro ⟨⟩)

/-- Every event that can wait while the window of a detachment is made anew. -/
theorem handled_recreating (hstate : c.state = .recreatingAfterDetach)
    (htype : event.type.isArrival = true ∨
      event.type ∈ [EventType.windowRecreated, .windowRecreationFailed]) :
    Handled calls c event (c.handle calls event) := by
  have hwakes : event.type.wakes = true → c.state ≠ .detaching := by
    rw [hstate]
    rintro _ ⟨⟩
  have hkept : ∀ after : TaskbarLayoutCoordinator σ S W, Kept c after → after.state = c.state →
      Handled calls c event after := fun after hkept hafter =>
    .kept hkept (Or.inl hafter) (fun _ => hstate) hwakes
  have hignored : reduce c.state event = ⟨c.state, .none⟩ →
      Handled calls c event (c.handle calls event) := fun hreduce =>
    handled_ignored hreduce (fun _ => hstate) hwakes
  obtain ⟨type, windowDestroyed, request⟩ := event
  cases type with
  | acquireRequested =>
      have hreduce : reduce c.state (⟨.acquireRequested, windowDestroyed, request⟩ : Event W) =
          ⟨c.state, .completeReleaseStatus⟩ := by rw [hstate]; rfl
      exact handled_of_reduce hreduce (hkept _ ⟨rfl, rfl, rfl, rfl, rfl⟩ rfl)
  | activateRequested =>
      have hreduce : reduce c.state (⟨.activateRequested, windowDestroyed, request⟩ : Event W) =
          ⟨c.state, .completeReleaseStatus⟩ := by rw [hstate]; rfl
      exact handled_of_reduce hreduce (hkept _ ⟨rfl, rfl, rfl, rfl, rfl⟩ rfl)
  | windowRecreated =>
      have hreduce : reduce c.state (⟨.windowRecreated, windowDestroyed, request⟩ : Event W) =
          ⟨.detached, .completeDetach⟩ := by rw [hstate]; rfl
      exact handled_of_reduce hreduce (.finished (Or.inr ⟨hstate, by simp⟩))
  | windowRecreationFailed =>
      have hreduce : reduce c.state (⟨.windowRecreationFailed, windowDestroyed, request⟩ :
          Event W) = ⟨.detached, .completeDetach⟩ := by rw [hstate]; rfl
      exact handled_of_reduce hreduce (.finished (Or.inr ⟨hstate, by simp⟩))
  | _ => exact hignored (by rw [hstate]; rfl)

/-- Whatever is taken from the queue goes one of these ways. -/
theorem handle_cases {events : List (Event W)} (hcoherent : c.Coherent)
    (hevents : c.events = event :: events) :
    Handled calls ({ c with events := events } : TaskbarLayoutCoordinator σ S W) event
      (({ c with events := events } : TaskbarLayoutCoordinator σ S W).handle calls event) := by
  have hhead : event ∈ c.events := hevents ▸ List.mem_cons_self
  have halike : Alike c { c with events := events } := ⟨rfl, rfl, rfl, rfl, rfl, rfl, rfl⟩
  cases hcoherent with
  | detached hstate hqueue _ htransaction _ _ hfate =>
      exact handled_detached (hqueue event hhead) hstate htransaction hfate
  | prepared hstate hqueue hready =>
      exact handled_prepared (hqueue event hhead) hstate (halike.ready hready)
  | attached hstate hqueue _ htransaction _ hfate =>
      exact handled_attached (hqueue event hhead) hstate htransaction hfate
  | operating hstate hfits hawaits hheld =>
      rcases Awaits.next c hawaits hevents with ⟨harrival, -⟩ | ⟨rfl, rfl⟩
      · exact handled_operating harrival hstate (halike.secured (Held.secured c hheld))
      · exact handled_result hstate rfl hfits (halike.held hheld)
  | detaching hstate => exact handled_detaching hstate
  | recreating hstate htype hawaits =>
      rcases Awaits.next c hawaits hevents with ⟨harrival, -⟩ | ⟨rfl, rfl⟩
      · exact handled_recreating hstate (Or.inl harrival)
      · exact handled_recreating hstate (Or.inr htype)

end TaskbarLayoutCoordinator

end UwfManager
