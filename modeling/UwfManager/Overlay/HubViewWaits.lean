import UwfManager.Overlay.OverlayHubView

/-!
# What a view waits for

A view that is requested presents itself or is on its way, and a view whose request is revoked
gives its endpoint back.  As long as a state lasts that something must end, what ends it is in
the queue or a timer runs for it.
-/

namespace UwfManager

namespace OverlayHubView

variable (endpoint : OverlayHubEndpoint)

/-! ## What an action does -/

/-- The event that tells the result of an action. -/
def Action.result? (answer : Answer) : Action → Option Event
  | .attachAcquire => some (.attachFinished answer.attach)
  | .attachRefresh => some (.attachFinished answer.attach)
  | .activate => some (.activationFinished answer.attach)
  | .verifyAttach => some (.verificationObserved answer.verification .attach)
  | .verifyConfirmation => some (.verificationObserved answer.verification .confirmation)
  | .verifyHealth => some (.verificationObserved answer.verification .health)
  | .verifyChanged => some (.verificationObserved answer.verification .presentationChanged)
  | _ => Option.none

/-- An event that a view posts to itself or is notified of. -/
structure Event.IsOwn (event : Event) : Prop where
  request : event.request? = Option.none
  release : event ≠ .releaseStarted .complete
  authorization : event ≠ .activationAuthorized

/-- What an action leaves of a view: it lengthens the queue, and a retry is counted. -/
structure Executed (before after : OverlayHubView) (action : Action) (answer : Answer) : Prop where
  requested : after.requested = before.requested
  displayState : after.displayState = before.displayState
  confirmationTimer : after.confirmationTimer = before.confirmationTimer
  healthTimer : after.healthTimer = before.healthTimer
  retryTimer : after.retryTimer = before.retryTimer ∨
    after.retryTimer = true ∧ action = .scheduleRecoverRetry
  events : ∃ posted, after.events = before.events ++ posted ∧ (∀ event ∈ posted, event.IsOwn) ∧
    (∀ event ∈ action.result? answer, event ∈ posted) ∧
    (∀ result, .activationFinished result ∈ posted → action = .activate) ∧
    ((after.consecutiveFailures = before.consecutiveFailures ∧ action ≠ .scheduleRecoverRetry) ∨
      (action = .scheduleRecoverRetry ∧
        (after.consecutiveFailures ≤ endpoint.maxExclusiveRecoverAttempts ∨
          .releaseBlocked ∈ posted)))

theorem Notification.isOwn (notification : Notification) : notification.event.IsOwn := by
  cases notification <;> exact ⟨rfl, by rintro ⟨⟩, by rintro ⟨⟩⟩

variable {endpoint} {view : OverlayHubView} {answer : Answer}

theorem isOwn_of_mem_notifications {notifications : List Notification} :
    ∀ event ∈ notifications.map Notification.event, event.IsOwn := by
  intro event hevent
  obtain ⟨notification, -, rfl⟩ := List.mem_map.1 hevent
  exact notification.isOwn

theorem not_mem_notifications {notifications : List Notification} (result : AttachResult) :
    .activationFinished result ∉ notifications.map Notification.event := by
  intro hmem
  obtain ⟨notification, -, hevent⟩ := List.mem_map.1 hmem
  cases notification <;> cases hevent

/-- The endpoint notifies of what it will, and then the result is posted. -/
theorem executed_of_result {action : Action} {event : Event} {after : OverlayHubView}
    (hactivation : ∀ result, event = .activationFinished result → action = .activate)
    (hown : event.IsOwn) (hresult : action.result? answer = some event)
    (hother : action ≠ .scheduleRecoverRetry)
    (hafter : after = (view.notify answer.notifications).post event) :
    Executed endpoint view after action answer := by
  subst hafter
  refine ⟨rfl, rfl, rfl, rfl, Or.inl rfl, answer.notifications.map Notification.event ++ [event],
    List.append_assoc _ _ _, ?_, ?_, ?_, Or.inl ⟨rfl, hother⟩⟩
  · intro other hmem
    rcases List.mem_append.1 hmem with hmem | hmem
    · exact isOwn_of_mem_notifications other hmem
    · rw [List.mem_singleton.1 hmem]
      exact hown
  · intro other hother
    rw [hresult] at hother
    rw [← Option.some_inj.1 hother]
    exact List.mem_append_right _ (List.mem_singleton.2 rfl)
  · intro result hmem
    rcases List.mem_append.1 hmem with hmem | hmem
    · exact absurd hmem (not_mem_notifications result)
    · exact hactivation result (List.mem_singleton.1 hmem).symm

/-- A release is announced in front of the call and completed behind it. -/
theorem beginPresentationRelease_spec (view : OverlayHubView) (answer : Answer) :
    ∃ posted, view.beginPresentationRelease answer =
      { view with events := view.events ++ posted } ∧ (∀ event ∈ posted, event.IsOwn) ∧
      ∀ result, .activationFinished result ∉ posted := by
  have hstarted : Event.IsOwn (.releaseStarted .pending) := ⟨rfl, by rintro ⟨⟩, by rintro ⟨⟩⟩
  have hcompleted : Event.IsOwn .releaseCompleted := ⟨rfl, by rintro ⟨⟩, by rintro ⟨⟩⟩
  have hnone : ∀ result, .activationFinished result ∉ Event.releaseStarted .pending ::
      answer.notifications.map Notification.event := by
    intro result hmem
    rcases List.mem_cons.1 hmem with ⟨⟨⟩⟩ | hmem
    exact not_mem_notifications result hmem
  have hposted : ∀ event ∈ Event.releaseStarted .pending ::
      answer.notifications.map Notification.event, event.IsOwn :=
    List.forall_mem_cons.2 ⟨hstarted, isOwn_of_mem_notifications⟩
  rw [beginPresentationRelease]
  simp only [post, notify, List.append_assoc, List.singleton_append]
  split_ifs
  · refine ⟨(.releaseStarted .pending :: answer.notifications.map Notification.event) ++
      [.releaseCompleted], rfl, ?_, fun result hmem => ?_⟩
    · exact List.forall_mem_append.2 ⟨hposted, List.forall_mem_singleton.2 hcompleted⟩
    · refine hnone result ((List.mem_append.1 hmem).resolve_right fun hlast => ?_)
      cases List.mem_singleton.1 hlast
  · exact ⟨_, rfl, hposted, hnone⟩

theorem executed_of_release {action : Action} (hresult : action.result? answer = Option.none)
    (hother : action ≠ .scheduleRecoverRetry) :
    Executed endpoint view (view.beginPresentationRelease answer) action answer := by
  obtain ⟨posted, hposted, hown, hactivation⟩ := beginPresentationRelease_spec view answer
  rw [hposted]
  refine ⟨rfl, rfl, rfl, rfl, Or.inl rfl, posted, rfl, hown, ?_,
    fun result hmem => absurd hmem (hactivation result), Or.inl ⟨rfl, hother⟩⟩
  intro event hevent
  rw [hresult] at hevent
  cases hevent

theorem executed_of_retry :
    Executed endpoint view (view.scheduleRecoverRetry endpoint answer) .scheduleRecoverRetry
      answer := by
  have hblocked : Event.IsOwn .releaseBlocked := ⟨rfl, by rintro ⟨⟩, by rintro ⟨⟩⟩
  have hdue : Event.IsOwn .retryDue := ⟨rfl, by rintro ⟨⟩, by rintro ⟨⟩⟩
  have hnone : ∀ posted : List Event,
      ∀ event ∈ Action.scheduleRecoverRetry.result? answer, event ∈ posted := by
    rintro posted event ⟨⟩
  rw [scheduleRecoverRetry]
  simp only
  split_ifs with hexhausted hlater
  · obtain ⟨posted, hposted, hown, hactivation⟩ := beginPresentationRelease_spec
      (post { view with consecutiveFailures := view.consecutiveFailures + 1 } .releaseBlocked)
      answer
    rw [hposted]
    refine ⟨rfl, rfl, rfl, rfl, Or.inl rfl, .releaseBlocked :: posted, ?_, ?_, hnone _,
      fun result hmem => ?_, Or.inr ⟨rfl, Or.inr List.mem_cons_self⟩⟩
    · simp [post]
    · exact List.forall_mem_cons.2 ⟨hblocked, hown⟩
    · rcases List.mem_cons.1 hmem with ⟨⟨⟩⟩ | hmem
      exact absurd hmem (hactivation result)
  · exact ⟨rfl, rfl, rfl, rfl, Or.inr ⟨rfl, rfl⟩, [], (List.append_nil _).symm, by simp, hnone _,
      by rintro result ⟨⟩, Or.inr ⟨rfl, Or.inl (Nat.le_of_not_lt hexhausted)⟩⟩
  · refine ⟨rfl, rfl, rfl, rfl, Or.inl rfl, [.retryDue], rfl, List.forall_mem_singleton.2 hdue,
      hnone _, fun result hmem => ?_, Or.inr ⟨rfl, Or.inl (Nat.le_of_not_lt hexhausted)⟩⟩
    cases List.mem_singleton.1 hmem

theorem execute_executed (endpoint : OverlayHubEndpoint) (view : OverlayHubView)
    (answer : Answer) (action : Action) :
    Executed endpoint view (view.execute endpoint answer action) action answer := by
  cases action with
  | none =>
      exact ⟨rfl, rfl, rfl, rfl, Or.inl rfl, [], (List.append_nil _).symm, by simp,
        by rintro event ⟨⟩, by rintro result ⟨⟩, Or.inl ⟨rfl, by rintro ⟨⟩⟩⟩
  | suspend =>
      exact ⟨rfl, rfl, rfl, rfl, Or.inl rfl, _, rfl, isOwn_of_mem_notifications,
        by rintro event ⟨⟩, fun result hmem => absurd hmem (not_mem_notifications result),
        Or.inl ⟨rfl, by rintro ⟨⟩⟩⟩
  | releaseRecovery => exact executed_of_release rfl (by rintro ⟨⟩)
  | releaseRequest => exact executed_of_release rfl (by rintro ⟨⟩)
  | scheduleRecoverRetry => exact executed_of_retry
  | activate =>
      exact executed_of_result (fun _ _ => rfl) ⟨rfl, by rintro ⟨⟩, by rintro ⟨⟩⟩ rfl
        (by rintro ⟨⟩) rfl
  | _ =>
      exact executed_of_result (by rintro result ⟨⟩) ⟨rfl, by rintro ⟨⟩, by rintro ⟨⟩⟩ rfl
        (by rintro ⟨⟩) rfl

/-! ## Requests and states -/

/-- The states of a view whose request is revoked. -/
def withdrawnStates : List DisplayState := [.disabled, .withdrawn, .withdrawing, .blockedWithdrawn]

/-- A view has left the withdrawn states if it is requested, and is in one of them if it is not.
A view that turned out incompatible stays what it is. -/
def Follows (requested : Bool) (state : DisplayState) : Prop :=
  if requested then state ∉ withdrawnStates else state ∈ withdrawnStates ∨ state = .incompatible

instance (requested : Bool) (state : DisplayState) : Decidable (Follows requested state) :=
  inferInstanceAs (Decidable (if requested then _ else _))

/-- The events that end a state that must not last. -/
def ends : DisplayState → Event → Bool
  | .probing, .attachFinished _ => true
  | .refreshing, .attachFinished _ => true
  | .refreshing, .activationFinished _ => true
  | .refreshing, .verificationObserved _ _ => true
  | .attaching, .confirmationDue => true
  | .attaching, .verificationObserved _ .confirmation => true
  | .activating, .activationFinished _ => true
  | .unavailable, .retryDue => true
  | .recovering, .releaseBlocked => true
  | _, _ => false

/-- The result of an action will end a state. -/
def Ending (state : DisplayState) (action : Action) : Prop :=
  ∀ answer, ∃ event ∈ action.result? answer, ends state event = true

/-- What one row of the table does. -/
structure Row (state : DisplayState) (event : Event) (transition : Transition) : Prop where
  follows : ∀ requested, Follows requested state →
    Follows (event.request?.getD requested) transition.nextState
  changes : transition.actionBeforeStateChange = true → transition.nextState ≠ state
  renewed : transition.nextState = state → ends state event = true →
    ∃ event ∈ transition.action.result? {}, ends state event = true
  entered : transition.nextState ≠ state →
    transition.nextState = .probing ∨ transition.nextState = .refreshing →
    transition.actionBeforeStateChange = false ∧
      ∃ event ∈ transition.action.result? {}, ends transition.nextState event = true
  retried : transition.action = .scheduleRecoverRetry →
    transition.actionBeforeStateChange = false ∧ transition.nextState = .recovering
  activated : transition.action = .activate → transition.actionBeforeStateChange = false ∧
    (transition.nextState = .activating ∨ transition.nextState = .refreshing)

instance (state : DisplayState) (event : Event) (transition : Transition) :
    Decidable (Row state event transition) :=
  decidable_of_iff
    ((Follows true state → Follows (event.request?.getD true) transition.nextState) ∧
      (Follows false state → Follows (event.request?.getD false) transition.nextState) ∧
      (transition.actionBeforeStateChange = true → transition.nextState ≠ state) ∧
      (transition.nextState = state → ends state event = true →
        ∃ event ∈ transition.action.result? {}, ends state event = true) ∧
      (transition.nextState ≠ state →
        transition.nextState = .probing ∨ transition.nextState = .refreshing →
        transition.actionBeforeStateChange = false ∧
          ∃ event ∈ transition.action.result? {}, ends transition.nextState event = true) ∧
      (transition.action = .scheduleRecoverRetry →
        transition.actionBeforeStateChange = false ∧ transition.nextState = .recovering) ∧
      (transition.action = .activate → transition.actionBeforeStateChange = false ∧
        (transition.nextState = .activating ∨ transition.nextState = .refreshing)))
    (by
      constructor
      · rintro ⟨htrue, hfalse, hchanges, hrenewed, hentered, hretried, hactivated⟩
        exact ⟨fun requested => by cases requested <;> assumption, hchanges, hrenewed, hentered,
          hretried, hactivated⟩
      · rintro ⟨hfollows, hchanges, hrenewed, hentered, hretried, hactivated⟩
        exact ⟨hfollows true, hfollows false, hchanges, hrenewed, hentered, hretried, hactivated⟩)

/-- The table, row by row.  A release is never reported as complete where it starts. -/
theorem reduce_row (state : DisplayState) (event : Event)
    (hstarted : event ≠ .releaseStarted .complete) : Row state event (reduce state event) := by
  cases event with
  | attachFinished result => cases state <;> cases result <;> decide
  | activationFinished result => cases state <;> cases result <;> decide
  | verificationObserved result source =>
      cases state <;> cases result <;> cases source <;> decide
  | releaseStarted result =>
      cases result with
      | complete => exact absurd rfl hstarted
      | pending => cases state <;> decide
  | _ => cases state <;> decide


/-- Whether a result ends a state does not depend on what it says. -/
theorem ending_of_result {state : DisplayState} {action : Action}
    (hresult : ∃ event ∈ action.result? {}, ends state event = true) : Ending state action := by
  obtain ⟨event, hevent, hends⟩ := hresult
  intro answer
  cases action with
  | attachAcquire | attachRefresh | activate | verifyAttach | verifyConfirmation | verifyHealth
  | verifyChanged =>
      refine ⟨_, rfl, ?_⟩
      cases hevent
      cases state <;> exact hends
  | _ => cases hevent

theorem not_ending_none (state : DisplayState) : ¬ Ending state .none := by
  intro hending
  obtain ⟨event, hevent, -⟩ := hending {}
  cases hevent

/-! ## What holds a state up -/

/-- A state that must not last is held by its timer, and recovery by the attempts that are left.
Nothing but an event to come holds a probe or a refresh. -/
def Held (endpoint : OverlayHubEndpoint) (view : OverlayHubView) : Prop :=
  match view.displayState with
  | .probing => False
  | .refreshing => False
  | .attaching => view.confirmationTimer = true
  | .unavailable =>
      endpoint.retryIntervalMs view.consecutiveFailures > 0 → view.retryTimer = true
  | .recovering => view.consecutiveFailures ≤ endpoint.maxExclusiveRecoverAttempts
  | .confirmed => endpoint.healthCheckIntervalMs > 0 → view.healthTimer = true
  | _ => True

end OverlayHubView

namespace ProcessingView

open OverlayHubView

variable (endpoint : OverlayHubEndpoint)

/-- What ends the state is in the queue, or is the result of the action that is due. -/
def Ends (processing : ProcessingView) (state : DisplayState) : Prop :=
  (∃ event ∈ processing.view.events, ends state event = true) ∨ Ending state processing.action

/-- What holds of a view from its construction on. -/
structure Sound (processing : ProcessingView) : Prop where
  follows : Follows processing.view.requested processing.displayState
  started : .releaseStarted .complete ∉ processing.view.events
  retried : processing.action = .scheduleRecoverRetry → processing.displayState = .recovering
  activated : processing.action = .activate →
    processing.displayState = .activating ∨ processing.displayState = .refreshing
  held : Held endpoint processing.view ∨ processing.Ends processing.displayState
  confirmationTimer : processing.view.confirmationTimer = true →
    processing.displayState = .attaching
  retryTimer : processing.view.retryTimer = true →
    processing.displayState = .unavailable ∨ processing.displayState = .recovering
  healthTimer : processing.view.healthTimer = true → processing.displayState = .confirmed

variable {endpoint} {processing : ProcessingView} {event : Event} {answer : Answer}

theorem Ends.post {state : DisplayState} (hends : processing.Ends state) (event : Event) :
    (processing.post event).Ends state :=
  hends.imp_left fun ⟨other, hmem, hother⟩ => ⟨other, List.mem_append_left _ hmem, hother⟩

theorem ends_post_of_ends {state : DisplayState} (hends : ends state event = true) :
    (processing.post event).Ends state :=
  Or.inl ⟨event, List.mem_append_right _ (List.mem_singleton.2 rfl), hends⟩

theorem Sound.post (hsound : processing.Sound endpoint)
    (hevent : event ≠ .releaseStarted .complete) :
    (processing.post event).Sound endpoint where
  follows := hsound.follows
  started := by
    intro hmem
    rcases List.mem_append.1 hmem with hmem | hmem
    · exact hsound.started hmem
    · exact hevent (List.mem_singleton.1 hmem).symm
  retried := hsound.retried
  activated := hsound.activated
  held := hsound.held.imp_right fun hends => hends.post event
  confirmationTimer := hsound.confirmationTimer
  retryTimer := hsound.retryTimer
  healthTimer := hsound.healthTimer

/-- The result of an action that is executed comes into the queue. -/
theorem Ends.execute {state : DisplayState} (hends : processing.Ends state) (answer : Answer) :
    Ends { view := processing.view.execute endpoint answer processing.action } state := by
  obtain ⟨posted, hevents, -, hresult, -, -⟩ :=
    (execute_executed endpoint processing.view answer processing.action).events
  refine Or.inl ?_
  rw [hevents]
  rcases hends with ⟨event, hmem, hevent⟩ | hending
  · exact ⟨event, List.mem_append_left _ hmem, hevent⟩
  · obtain ⟨event, hmem, hevent⟩ := hending answer
    exact ⟨event, List.mem_append_right _ (hresult event hmem), hevent⟩

/-- An action that is due changes no state, and its result is on its way. -/
theorem Sound.execute (hsound : processing.Sound endpoint) (answer : Answer) :
    Sound endpoint { view := processing.view.execute endpoint answer processing.action } := by
  have hexecuted := execute_executed endpoint processing.view answer processing.action
  obtain ⟨posted, hevents, hown, -, -, hfailures⟩ := hexecuted.events
  have hstate : (processing.view.execute endpoint answer processing.action).displayState =
      processing.displayState := hexecuted.displayState
  refine ⟨?_, ?_, by rintro ⟨⟩, by rintro ⟨⟩, ?_, ?_, ?_, ?_⟩
  · rw [displayState, hstate, hexecuted.requested]
    exact hsound.follows
  · rw [hevents]
    intro hmem
    rcases List.mem_append.1 hmem with hmem | hmem
    · exact hsound.started hmem
    · exact (hown _ hmem).release rfl
  · rw [displayState, hstate]
    rcases hsound.held with hheld | hawaited
    · rcases hfailures with ⟨hsame, hother⟩ | ⟨hretry, hfailures⟩
      · have hretryTimer : (processing.view.execute endpoint answer
            processing.action).retryTimer = processing.view.retryTimer :=
          hexecuted.retryTimer.resolve_right fun hset => hother hset.2
        refine Or.inl ?_
        rw [Held, hstate, hsame, hexecuted.confirmationTimer, hexecuted.healthTimer, hretryTimer]
        exact hheld
      · -- Recovery goes on with one attempt less, or its end has been posted.
        have hrecovering := hsound.retried hretry
        rcases hfailures with hleft | hblocked
        · refine Or.inl ?_
          rw [Held, hstate, hrecovering]
          exact hleft
        · rw [hrecovering]
          exact Or.inr (Or.inl ⟨.releaseBlocked, by
            rw [hevents]; exact List.mem_append_right _ hblocked, rfl⟩)
    · exact Or.inr (hawaited.execute answer)
  · rw [displayState, hstate, hexecuted.confirmationTimer]
    exact hsound.confirmationTimer
  · rw [displayState, hstate]
    intro htimer
    rcases hexecuted.retryTimer with hsame | ⟨-, hretry⟩
    · exact hsound.retryTimer (hsame ▸ htimer)
    · exact Or.inr (hsound.retried hretry)
  · rw [displayState, hstate, hexecuted.healthTimer]
    exact hsound.healthTimer

/-- What the queue holds behind an event that is taken: the state changes as the table says, and
only events of the view itself are posted. -/
theorem take_spec (endpoint : OverlayHubEndpoint) (view : OverlayHubView) (event : Event)
    (answer : Answer) (hstarted : event ≠ .releaseStarted .complete) :
    ∃ posted, (∀ other ∈ posted, other.IsOwn) ∧
      (∀ result, .activationFinished result ∉ posted) ∧
      (take endpoint view event answer).view.events = view.events ++ posted ∧
      (take endpoint view event answer).view.requested =
        event.request?.getD view.requested ∧
      (take endpoint view event answer).displayState =
        (reduce view.displayState event).nextState ∧
      (take endpoint view event answer).view =
        (if (reduce view.displayState event).nextState ≠ view.displayState then
          enterState endpoint { view with
            events := view.events ++ posted
            requested := event.request?.getD view.requested }
            (reduce view.displayState event).nextState
        else { view with
          events := view.events ++ posted
          requested := event.request?.getD view.requested }) := by
  have hrow := reduce_row view.displayState event hstarted
  cases hbefore : (reduce view.displayState event).actionBeforeStateChange with
  | false =>
      refine ⟨[], by simp, by rintro result ⟨⟩, ?_, ?_, ?_, ?_⟩ <;>
        by_cases hnext : (reduce view.displayState event).nextState = view.displayState <;>
        simp [take, displayState, enterState, hbefore, hnext]
  | true =>
      have hchanges := hrow.changes hbefore
      have hretry : (reduce view.displayState event).action ≠ .scheduleRecoverRetry := by
        intro hretry
        rw [(hrow.retried hretry).1] at hbefore
        cases hbefore
      have hexecuted := execute_executed endpoint
        { view with requested := event.request?.getD view.requested } answer
        (reduce view.displayState event).action
      obtain ⟨posted, hevents, hown, -, hactivation, hfailures⟩ := hexecuted.events
      have hsame := (hfailures.resolve_right fun hother => hretry hother.1).1
      have hearly : ∀ result, .activationFinished result ∉ posted := by
        intro result hmem
        rw [(hrow.activated (hactivation result hmem)).1] at hbefore
        cases hbefore
      refine ⟨posted, hown, hearly, ?_, ?_, ?_, ?_⟩
      · simp [take, hbefore, hchanges, enterState, hevents]
      · simp [take, hbefore, hchanges, enterState, hexecuted.requested]
      · simp [take, hbefore, hchanges, enterState, displayState]
      · simp [take, hbefore, hchanges, enterState, hevents, hsame, hexecuted.requested]

theorem take_action (view : OverlayHubView) (event : Event) (answer : Answer) :
    (take endpoint view event answer).action =
      if (reduce view.displayState event).actionBeforeStateChange then .none
      else (reduce view.displayState event).action := rfl


/-- As long as a state lasts, an event that should have ended it has brought about another. -/
theorem Ends.take (endpoint : OverlayHubEndpoint) {rest : List Event}
    (hends : processing.Ends processing.displayState)
    (haction : processing.action = .none) (hevents : processing.view.events = event :: rest)
    (hstarted : event ≠ .releaseStarted .complete)
    (hnext : (reduce processing.displayState event).nextState = processing.displayState)
    (answer : Answer) :
    (take endpoint { processing.view with events := rest } event answer).Ends
      processing.displayState := by
  have hrow : Row processing.displayState event (reduce processing.displayState event) :=
    reduce_row processing.displayState event hstarted
  obtain ⟨posted, -, -, hqueue, -⟩ := take_spec endpoint
    { processing.view with events := rest } event answer hstarted
  rcases hends with ⟨other, hmem, hother⟩ | hending
  · rw [hevents] at hmem
    rcases List.mem_cons.1 hmem with rfl | hmem
    · have hbehind : (reduce processing.displayState other).actionBeforeStateChange = false :=
        Bool.eq_false_iff.2 fun hbefore => hrow.changes hbefore hnext
      refine Or.inr ?_
      rw [take_action]
      change Ending _ (if (reduce processing.displayState other).actionBeforeStateChange then
        .none else (reduce processing.displayState other).action)
      rw [hbehind]
      exact ending_of_result (hrow.renewed hnext hother)
    · exact Or.inl ⟨other, by rw [hqueue]; exact List.mem_append_left _ hmem, hother⟩
  · rw [haction] at hending
    exact absurd hending (not_ending_none _)

/-- A state that is entered is held at once: by its timer, by fresh attempts, or by the result of
the action that follows. -/
theorem held_of_entered {view : OverlayHubView} (hrow : Row view.displayState event
      (reduce view.displayState event))
    (hnext : (reduce view.displayState event).nextState ≠ view.displayState)
    {entered : OverlayHubView}
    (hentered : (take endpoint view event answer).view =
      enterState endpoint entered (reduce view.displayState event).nextState) :
    Held endpoint (take endpoint view event answer).view ∨
      (take endpoint view event answer).Ends (reduce view.displayState event).nextState := by
  have hending : (reduce view.displayState event).nextState = .probing ∨
      (reduce view.displayState event).nextState = .refreshing →
      (take endpoint view event answer).Ends (reduce view.displayState event).nextState := by
    intro hstate
    obtain ⟨hbehind, hresult⟩ := hrow.entered hnext hstate
    refine Or.inr ?_
    rw [take_action, hbehind]
    exact ending_of_result hresult
  rw [hentered]
  generalize (reduce view.displayState event).nextState = next at hending ⊢
  cases next with
  | probing => exact Or.inr (hending (Or.inl rfl))
  | refreshing => exact Or.inr (hending (Or.inr rfl))
  | unavailable => exact Or.inl fun hinterval => decide_eq_true hinterval
  | confirmed => exact Or.inl fun hinterval => decide_eq_true hinterval
  | recovering => exact Or.inl (Nat.zero_le _)
  | attaching => exact Or.inl rfl
  | _ => exact Or.inl trivial

theorem enterState_timers (endpoint : OverlayHubEndpoint) (view : OverlayHubView)
    (state : DisplayState) :
    ((enterState endpoint view state).confirmationTimer = true → state = .attaching) ∧
      ((enterState endpoint view state).retryTimer = true → state = .unavailable) ∧
      ((enterState endpoint view state).healthTimer = true → state = .confirmed) := by
  refine ⟨?_, ?_, ?_⟩ <;> simp +contextual [enterState]

theorem Sound.take {rest : List Event} (hsound : processing.Sound endpoint)
    (haction : processing.action = .none) (hevents : processing.view.events = event :: rest)
    (answer : Answer) :
    Sound endpoint (take endpoint { processing.view with events := rest } event answer) := by
  have hstarted : event ≠ .releaseStarted .complete := by
    rintro rfl
    exact hsound.started (hevents ▸ List.mem_cons_self)
  have hrow : Row processing.displayState event (reduce processing.displayState event) :=
    reduce_row processing.displayState event hstarted
  obtain ⟨posted, hown, -, hqueue, hrequested, hstate, hview⟩ := take_spec endpoint
    { processing.view with events := rest } event answer hstarted
  change (ProcessingView.take endpoint { processing.view with events := rest } event
    answer).displayState = (reduce processing.displayState event).nextState at hstate
  have hfollows := hrow.follows _ hsound.follows
  have hnone : .releaseStarted .complete ∉ rest ++ posted := by
    intro hmem
    rcases List.mem_append.1 hmem with hmem | hmem
    · exact hsound.started (hevents ▸ List.mem_cons_of_mem _ hmem)
    · exact (hown _ hmem).release rfl
  have hretried : (ProcessingView.take endpoint { processing.view with events := rest } event
      answer).action = .scheduleRecoverRetry →
      (reduce processing.displayState event).nextState = .recovering := by
    intro hretry
    rw [take_action] at hretry
    split_ifs at hretry
    exact (hrow.retried hretry).2
  have hactivated : (ProcessingView.take endpoint { processing.view with events := rest } event
      answer).action = .activate →
      (reduce processing.displayState event).nextState = .activating ∨
        (reduce processing.displayState event).nextState = .refreshing := by
    intro hactivate
    rw [take_action] at hactivate
    split_ifs at hactivate
    exact (hrow.activated hactivate).2
  by_cases hnext : (reduce processing.displayState event).nextState = processing.displayState
  · have hsame : (ProcessingView.take endpoint { processing.view with events := rest } event
        answer).view = { processing.view with
          events := rest ++ posted
          requested := event.request?.getD processing.view.requested } := by
      rw [hview]
      exact if_neg (not_not_intro hnext)
    refine ⟨?_, ?_, ?_, ?_, ?_, ?_, ?_, ?_⟩
    · rw [hstate, hrequested]
      exact hfollows
    · rw [hsame]
      exact hnone
    · rw [hstate]
      exact hretried
    · rw [hstate]
      exact hactivated
    · rw [hstate, hnext, hsame]
      refine hsound.held.imp id fun hends => ?_
      have hawaited := hends.take endpoint haction hevents hstarted hnext answer
      rw [Ends, hsame] at hawaited
      rw [Ends, hsame]
      exact hawaited
    · rw [hstate, hnext, hsame]
      exact hsound.confirmationTimer
    · rw [hstate, hnext, hsame]
      exact hsound.retryTimer
    · rw [hstate, hnext, hsame]
      exact hsound.healthTimer
  · have hentered := hview.trans (if_pos hnext)
    obtain ⟨hconfirmation, hretry, hhealth⟩ := enterState_timers endpoint
      { processing.view with
        events := rest ++ posted
        requested := event.request?.getD processing.view.requested }
      (reduce processing.displayState event).nextState
    refine ⟨?_, ?_, ?_, ?_, ?_, ?_, ?_, ?_⟩
    · rw [hstate, hrequested]
      exact hfollows
    · rw [hqueue]
      exact hnone
    · rw [hstate]
      exact hretried
    · rw [hstate]
      exact hactivated
    · rw [hstate]
      exact held_of_entered hrow hnext hentered
    · rw [hstate, hentered]
      exact hconfirmation
    · rw [hstate, hentered]
      exact fun htimer => Or.inl (hretry htimer)
    · rw [hstate, hentered]
      exact hhealth

/-! ## Runs -/

theorem Sound.work (hsound : processing.Sound endpoint) (answer : Answer) :
    (processing.work endpoint answer).Sound endpoint := by
  rw [ProcessingView.work]
  split_ifs with haction
  · split
    · exact hsound
    · rename_i event rest hevents
      exact hsound.take haction hevents answer
  · exact hsound.execute answer

/-- A timer that runs out is replaced by its event. -/
theorem Sound.timeout (hsound : processing.Sound endpoint) (timer : Timer) :
    (processing.timeout timer).Sound endpoint := by
  cases timer with
  | confirmation =>
      rw [ProcessingView.timeout]
      split_ifs with htimer
      · have hstate := hsound.confirmationTimer htimer
        have hposted : (processing.post .confirmationDue).Sound endpoint :=
          hsound.post (by rintro ⟨⟩)
        exact { hposted with
          held := by
            refine Or.inr (ends_post_of_ends ?_)
            change ends processing.displayState .confirmationDue = true
            rw [hstate]
            rfl
          confirmationTimer := by rintro ⟨⟩ }
      · exact hsound
  | retry =>
      rw [ProcessingView.timeout]
      split_ifs with htimer
      · have hposted : (processing.post .retryDue).Sound endpoint := hsound.post (by rintro ⟨⟩)
        refine ⟨hposted.follows, hposted.started, hposted.retried, hposted.activated, ?_,
          hposted.confirmationTimer,
          by rintro ⟨⟩, hposted.healthTimer⟩
        rcases hsound.retryTimer htimer with hstate | hstate
        · refine Or.inr (ends_post_of_ends ?_)
          change ends processing.displayState .retryDue = true
          rw [hstate]
          rfl
        · refine hposted.held.imp ?_ id
          change Held endpoint (processing.view.post .retryDue) → Held endpoint _
          have hrecovering : processing.view.displayState = .recovering := hstate
          simp only [Held, OverlayHubView.post, ProcessingView.post, hrecovering, imp_self]
      · exact hsound
  | health =>
      rw [ProcessingView.timeout]
      split_ifs
      · exact hsound.post (by rintro ⟨⟩)
      · exact hsound

theorem Sound.step (hsound : processing.Sound endpoint) (input : Input) :
    (processing.step endpoint input).Sound endpoint := by
  cases input with
  | setPresentationRequested requested =>
      exact hsound.post (by cases requested <;> rintro ⟨⟩)
  | authorizePresentationActivation => exact hsound.post (by rintro ⟨⟩)
  | notify notification => exact hsound.post notification.isOwn.release
  | timeout timer => exact hsound.timeout timer
  | work answer => exact hsound.work answer

theorem sound_initial : Sound endpoint {} where
  follows := Or.inl (List.mem_cons_self)
  started := by rintro ⟨⟩
  retried := by rintro ⟨⟩
  activated := by rintro ⟨⟩
  held := Or.inl trivial
  confirmationTimer := by rintro ⟨⟩
  retryTimer := by rintro ⟨⟩
  healthTimer := by rintro ⟨⟩

theorem sound_run (inputs : List Input) :
    Sound endpoint (inputs.foldl (ProcessingView.step endpoint) {}) :=
  List.foldlRecOn inputs _ sound_initial fun _ hsound input _ => hsound.step input


/-- At every moment, also within its processing, a view in one of the withdrawn states is not
requested, and a view that is not requested is in one of them unless it is incompatible. -/
theorem displayState_follows_request (endpoint : OverlayHubEndpoint) (inputs : List Input) :
    let processing := inputs.foldl (ProcessingView.step endpoint) {}
    (processing.displayState ∈ withdrawnStates → processing.view.requested = false) ∧
      (processing.view.requested = false →
        processing.displayState ∈ withdrawnStates ∨ processing.displayState = .incompatible) := by
  intro processing
  have hfollows : Follows processing.view.requested processing.displayState :=
    (sound_run inputs).follows
  cases hrequested : processing.view.requested with
  | false =>
      rw [hrequested, Follows, if_neg Bool.false_ne_true] at hfollows
      exact ⟨fun _ => rfl, fun _ => hfollows⟩
  | true =>
      rw [hrequested, Follows, if_pos rfl] at hfollows
      exact ⟨fun hwithdrawn => absurd hwithdrawn hfollows, by rintro ⟨⟩⟩

theorem Idle.not_ends (hidle : processing.Idle) (state : DisplayState) :
    ¬ processing.Ends state := by
  rintro (⟨event, hmem, -⟩ | hending)
  · rw [hidle.1] at hmem
    cases hmem
  · rw [hidle.2] at hending
    exact not_ending_none _ hending

/-- A view that has nothing left to process does not probe or refresh, and every other state that
it must leave by itself has its timer: confirmation, retry and health check run exactly where
they are due, and recovery has not used up its attempts. -/
theorem idle_view_waits_for_timer (endpoint : OverlayHubEndpoint) (inputs : List Input) :
    let processing := inputs.foldl (ProcessingView.step endpoint) {}
    processing.Idle →
      processing.displayState ≠ .probing ∧ processing.displayState ≠ .refreshing ∧
      (processing.view.confirmationTimer = true ↔ processing.displayState = .attaching) ∧
      (processing.displayState = .unavailable →
        endpoint.retryIntervalMs processing.view.consecutiveFailures > 0 →
          processing.view.retryTimer = true) ∧
      (processing.view.retryTimer = true →
        processing.displayState = .unavailable ∨ processing.displayState = .recovering) ∧
      (processing.displayState = .confirmed → endpoint.healthCheckIntervalMs > 0 →
        processing.view.healthTimer = true) ∧
      (processing.view.healthTimer = true → processing.displayState = .confirmed) ∧
      (processing.displayState = .recovering →
        processing.view.consecutiveFailures ≤ endpoint.maxExclusiveRecoverAttempts) := by
  intro processing hidle
  have hsound : processing.Sound endpoint := sound_run inputs
  have hheld : Held endpoint processing.view :=
    hsound.held.resolve_right (hidle.not_ends processing.displayState)
  have hstate : ∀ state, processing.displayState = state → processing.view.displayState = state :=
    fun _ => id
  refine ⟨?_, ?_, ⟨hsound.confirmationTimer, ?_⟩, ?_, hsound.retryTimer, ?_, hsound.healthTimer,
    ?_⟩
  all_goals
    intro hcurrent
    rw [Held, hstate _ hcurrent] at hheld
    exact hheld


/-- A view that was attached and could not be verified at once waits for its confirmation. -/
theorem attached_view_waits_for_confirmation :
    (([.setPresentationRequested true, .work {}, .work { attach := .prepared }, .work {},
      .authorizePresentationActivation, .work {}, .work { attach := .attached }, .work {},
      .work { verification := .pending }, .work {}] : List Input).foldl
        (ProcessingView.step { priority := 0 }) {}).view.confirmationTimer = true :=
  (idle_view_waits_for_timer { priority := 0 } [.setPresentationRequested true, .work {},
    .work { attach := .prepared }, .work {}, .authorizePresentationActivation, .work {},
    .work { attach := .attached }, .work {}, .work { verification := .pending }, .work {}]
    (by decide)).2.2.1.2 rfl


end ProcessingView

end UwfManager
