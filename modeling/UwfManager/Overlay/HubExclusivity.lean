import UwfManager.Overlay.HubReconciliation

/-!
# One view at a time

A prepared view is made visible only when the hub authorises it.  At this moment no other view is
confirmed or on its way, although the view within whose event the hub reconciles has not yet
handled what it was asked for.
-/

namespace UwfManager

open OverlayHubView

namespace ProcessingView

variable {endpoint : OverlayHubEndpoint} {processing : ProcessingView} {event : Event}
  {answer : Answer}

/-- A view that is requested, and has nothing to process but to be requested again. -/
structure Quiet (processing : ProcessingView) : Prop where
  action : processing.action = .none
  events : ∀ event ∈ processing.view.events, event = .requestEnabled
  requested : processing.view.requested = true
  state : processing.displayState ∉ withdrawnStates

/-- A view that is not requested and will not be. -/
structure Revoked (processing : ProcessingView) : Prop where
  requested : processing.view.requested = false
  events : .requestEnabled ∉ processing.view.events

theorem reduce_requestEnabled {state : DisplayState} (hstate : state ∉ withdrawnStates) :
    reduce state .requestEnabled = ignoreEvent state := by
  revert hstate
  cases state <;> decide

/-- To be requested again changes nothing. -/
theorem Quiet.work (hquiet : processing.Quiet) (answer : Answer) :
    (processing.work endpoint answer).Quiet ∧
      (processing.work endpoint answer).displayState = processing.displayState := by
  rw [ProcessingView.work, if_pos hquiet.action]
  split
  · exact ⟨hquiet, rfl⟩
  · rename_i event rest hevents
    obtain rfl : event = .requestEnabled :=
      hquiet.events event (hevents ▸ List.mem_cons_self)
    have hreduce : reduce processing.view.displayState .requestEnabled =
        ignoreEvent processing.view.displayState := reduce_requestEnabled hquiet.state
    rw [ProcessingView.take]
    simp only [hreduce, ignoreEvent, Bool.false_eq_true, if_false, ne_eq, not_true]
    refine ⟨⟨rfl, fun other hother => ?_, rfl, hquiet.state⟩, rfl⟩
    exact hquiet.events other (hevents ▸ List.mem_cons_of_mem _ hother)

theorem Quiet.requestAgain (hquiet : processing.Quiet) :
    (processing.setPresentationRequested true).Quiet := by
  refine ⟨hquiet.action, fun event hevent => ?_, hquiet.requested, hquiet.state⟩
  rcases List.mem_append.1 hevent with hevent | hevent
  · exact hquiet.events event hevent
  · exact List.mem_singleton.1 hevent

theorem Idle.quiet (hidle : processing.Idle) (hsound : processing.Sound endpoint)
    (hwanted : processing.wanted = true) : processing.Quiet := by
  have hrequested := hidle.wanted.symm.trans hwanted
  refine ⟨hidle.2, ?_, hrequested, ?_⟩
  · rw [hidle.1]
    rintro event ⟨⟩
  · have hfollows := hsound.follows
    rw [Follows, if_pos hrequested] at hfollows
    exact hfollows

theorem Revoked.post (hrevoked : processing.Revoked) (hevent : event ≠ .requestEnabled) :
    (processing.post event).Revoked := by
  refine ⟨hrevoked.requested, fun hmem => ?_⟩
  rcases List.mem_append.1 hmem with hmem | hmem
  · exact hrevoked.events hmem
  · exact hevent (List.mem_singleton.1 hmem).symm

theorem Revoked.timeout (hrevoked : processing.Revoked) (timer : Timer) :
    (processing.timeout timer).Revoked := by
  cases timer <;> rw [ProcessingView.timeout] <;> split_ifs
  · have hstopped : Revoked { processing with
        view := { processing.view with confirmationTimer := false } } :=
      ⟨hrevoked.requested, hrevoked.events⟩
    exact hstopped.post (by rintro ⟨⟩)
  · exact hrevoked
  · have hstopped : Revoked { processing with
        view := { processing.view with retryTimer := false } } :=
      ⟨hrevoked.requested, hrevoked.events⟩
    exact hstopped.post (by rintro ⟨⟩)
  · exact hrevoked
  · exact hrevoked.post (by rintro ⟨⟩)
  · exact hrevoked

/-- No view requests itself. -/
theorem Revoked.work (hrevoked : processing.Revoked) (hsound : processing.Sound endpoint)
    (answer : Answer) : (processing.work endpoint answer).Revoked := by
  have hposted : ∀ {posted : List Event}, (∀ event ∈ posted, event.IsOwn) →
      .requestEnabled ∉ posted := by
    intro posted hown hmem
    have hrequest := (hown _ hmem).request
    cases hrequest
  rw [ProcessingView.work]
  split_ifs
  · split
    · exact hrevoked
    · rename_i event rest hevents
      have hstarted : event ≠ .releaseStarted .complete := by
        rintro rfl
        exact hsound.started (hevents ▸ List.mem_cons_self)
      obtain ⟨posted, hown, -, hqueue, hrequested, -⟩ := take_spec endpoint
        { processing.view with events := rest } event answer hstarted
      refine ⟨?_, ?_⟩
      · rw [hrequested, show ({ processing.view with events := rest } : OverlayHubView).requested =
          false from hrevoked.requested]
        cases event with
        | requestEnabled => exact absurd (hevents ▸ List.mem_cons_self) hrevoked.events
        | _ => rfl
      · rw [hqueue, List.mem_append]
        rintro (hmem | hmem)
        · exact hrevoked.events (hevents ▸ List.mem_cons_of_mem _ hmem)
        · exact hposted hown hmem
  · have hexecuted := execute_executed endpoint processing.view answer
      processing.action
    obtain ⟨posted, hevents, hown, -⟩ := hexecuted.events
    refine ⟨hexecuted.requested.trans hrevoked.requested, ?_⟩
    rw [hevents, List.mem_append]
    rintro (hmem | hmem)
    · exact hrevoked.events hmem
    · exact hposted hown hmem

/-! ## Views that may not be activated -/

/-- A view that nothing has authorised yet. -/
structure Unauthorized (processing : ProcessingView) : Prop where
  authorization : .activationAuthorized ∉ processing.view.events
  activation : ∀ result, .activationFinished result ∉ processing.view.events
  action : processing.action ≠ .activate
  state : processing.displayState ∉ [.attaching, .refreshing, .confirmed]

theorem reduce_unauthorized {state : DisplayState} {event : Event}
    (hstate : state ∉ [.attaching, .refreshing, .confirmed])
    (hauthorization : event ≠ .activationAuthorized)
    (hactivation : ∀ result, event ≠ .activationFinished result) :
    (reduce state event).nextState ∉ [.attaching, .refreshing, .confirmed] ∧
      (reduce state event).action ≠ .activate := by
  cases event with
  | activationAuthorized => exact absurd rfl hauthorization
  | activationFinished result => exact absurd rfl (hactivation result)
  | attachFinished result =>
      revert hstate
      cases state <;> cases result <;> decide
  | verificationObserved result source =>
      have hignored : reduce state (.verificationObserved result source) = ignoreEvent state := by
        refine if_neg fun hpresenting => hstate ?_
        rcases hpresenting with rfl | rfl | rfl <;> decide
      rw [hignored]
      exact ⟨hstate, by rintro ⟨⟩⟩
  | releaseStarted result =>
      revert hstate
      cases state <;> cases result <;> decide
  | _ =>
      revert hstate
      cases state <;> decide

theorem Unauthorized.work (hunauthorized : processing.Unauthorized)
    (hsound : processing.Sound endpoint) (answer : Answer) :
    (processing.work endpoint answer).Unauthorized := by
  have hnone : ∀ {posted : List Event}, (∀ event ∈ posted, event.IsOwn) →
      .activationAuthorized ∉ posted :=
    fun hown hmem => (hown _ hmem).authorization rfl
  rw [ProcessingView.work]
  split_ifs
  · split
    · exact hunauthorized
    · rename_i event rest hevents
      have hmem : event ∈ processing.view.events := hevents ▸ List.mem_cons_self
      have hrest : ∀ other ∈ rest, other ∈ processing.view.events :=
        fun other hother => hevents ▸ List.mem_cons_of_mem _ hother
      have hstarted : event ≠ .releaseStarted .complete := by
        rintro rfl
        exact hsound.started hmem
      have hauthorization : event ≠ .activationAuthorized := by
        rintro rfl
        exact hunauthorized.authorization hmem
      have hactivation : ∀ result, event ≠ .activationFinished result := by
        rintro result rfl
        exact hunauthorized.activation result hmem
      obtain ⟨posted, hown, hearly, hqueue, -, hstate, -⟩ := take_spec endpoint
        { processing.view with events := rest } event answer hstarted
      obtain ⟨hnext, haction⟩ :=
        reduce_unauthorized hunauthorized.state hauthorization hactivation
      refine ⟨?_, fun result => ?_, ?_, ?_⟩
      · rw [hqueue, List.mem_append]
        rintro (hother | hother)
        · exact hunauthorized.authorization (hrest _ hother)
        · exact hnone hown hother
      · rw [hqueue, List.mem_append]
        rintro (hother | hother)
        · exact hunauthorized.activation result (hrest _ hother)
        · exact hearly result hother
      · rw [take_action]
        split_ifs
        · rintro ⟨⟩
        · exact haction
      · rw [hstate]
        exact hnext
  · have hexecuted := execute_executed endpoint processing.view answer
      processing.action
    obtain ⟨posted, hevents, hown, -, hactivate, -⟩ := hexecuted.events
    refine ⟨?_, fun result => ?_, by rintro ⟨⟩, ?_⟩
    · rw [hevents, List.mem_append]
      rintro (hmem | hmem)
      · exact hunauthorized.authorization hmem
      · exact hnone hown hmem
    · rw [hevents, List.mem_append]
      rintro (hmem | hmem)
      · exact hunauthorized.activation result hmem
      · exact hunauthorized.action (hactivate result hmem)
    · rw [displayState, hexecuted.displayState]
      exact hunauthorized.state

/-- What a view is while it processes a request of a pass. -/
def Answering (processing : ProcessingView) : Prop :=
  processing.Quiet ∨
    (processing.action = .none ∧ processing.view.events = [.requestDisabled]) ∨
    processing.Unauthorized

theorem Answering.not_activate (hanswering : processing.Answering) :
    processing.action ≠ .activate := by
  rcases hanswering with hquiet | ⟨hnone, -⟩ | hunauthorized
  · rw [hquiet.action]
    rintro ⟨⟩
  · rw [hnone]
    rintro ⟨⟩
  · exact hunauthorized.action

theorem not_presenting_of_follows {state : DisplayState} (hfollows : Follows false state) :
    state ∉ [.activating, .attaching, .refreshing, .confirmed] := by
  revert hfollows
  cases state <;> decide

theorem Answering.work (hanswering : processing.Answering) (hsound : processing.Sound endpoint)
    (answer : Answer) : (processing.work endpoint answer).Answering := by
  rcases hanswering with hquiet | ⟨hnone, hrevoking⟩ | hunauthorized
  · exact Or.inl (hquiet.work answer).1
  · have hworked := hsound.work answer
    refine Or.inr (Or.inr ?_)
    rw [ProcessingView.work, if_pos hnone] at hworked ⊢
    rw [hrevoking] at hworked ⊢
    obtain ⟨posted, hown, hearly, hqueue, hrequested, -⟩ := take_spec endpoint
      { processing.view with events := [] } .requestDisabled answer (by rintro ⟨⟩)
    have hstate := hworked.follows
    rw [hrequested] at hstate
    have hstate := not_presenting_of_follows hstate
    refine ⟨?_, fun result => ?_, fun hactivate => ?_, fun hmem => ?_⟩
    · rw [hqueue]
      exact fun hmem => (hown _ hmem).authorization rfl
    · rw [hqueue]
      exact hearly result
    · rcases hworked.activated hactivate with hcontra | hcontra <;> rw [hcontra] at hstate
      · exact hstate (by decide)
      · exact hstate (by decide)
    · exact hstate (List.mem_cons_of_mem _ hmem)
  · exact Or.inr (Or.inr (hunauthorized.work hsound answer))

/-- A view that is asked by a pass has been idle. -/
theorem Idle.answering (hidle : processing.Idle) (hsound : processing.Sound endpoint)
    (requested : Bool) : (processing.setPresentationRequested requested).Answering := by
  cases requested with
  | false =>
      refine Or.inr (Or.inl ⟨hidle.2, ?_⟩)
      change processing.view.events ++ [.requestDisabled] = [.requestDisabled]
      rw [hidle.1, List.nil_append]
  | true =>
      cases hrequested : processing.view.requested with
      | true => exact Or.inl (hidle.quiet hsound (hidle.wanted.trans hrequested)).requestAgain
      | false =>
          have hevents : (processing.setPresentationRequested true).view.events =
              [.requestEnabled] := by
            change processing.view.events ++ [.requestEnabled] = [.requestEnabled]
            rw [hidle.1, List.nil_append]
          have hfollows := hsound.follows
          rw [hrequested] at hfollows
          refine Or.inr (Or.inr ⟨?_, fun result => ?_, ?_, fun hmem => ?_⟩)
          · rw [hevents]
            rintro (_ | ⟨_, ⟨⟩⟩)
          · rw [hevents]
            rintro (_ | ⟨_, ⟨⟩⟩)
          · rw [show (processing.setPresentationRequested true).action = .none from hidle.2]
            rintro ⟨⟩
          · exact not_presenting_of_follows hfollows (List.mem_cons_of_mem _ hmem)

end ProcessingView

namespace OverlayHub

open ProcessingView Frontier

variable {ι : Type*} {endpoint : ι → OverlayHubEndpoint} {hub after : OverlayHub ι}
  {view : ι} {answer : Answer}

/-- A view will not change within a pass: the pass runs within its event, or it is quiet. -/
def Kept (hub : OverlayHub ι) (view : ι) : Prop := hub.handling = some view ∨ (hub.views view).Quiet

/-- What holds for the view within whose event the hub reconciles.  The views in front of it are
not standing and will not come to, or one of them stands and the view is withdrawn. -/
def Overtaken (hub : OverlayHub ι) (view : ι) : Prop :=
  (∀ front back, hub.order = front ++ view :: back → ∀ other ∈ front,
    hub.stands other = false ∧ (hub.views other).Quiet) ∨
  (view ∉ downTo hub.stands hub.order ∧ (hub.views view).Revoked ∧
    ∀ other ∈ downTo hub.stands hub.order,
      (hub.views other).Quiet ∧ hub.displayState other ≠ .activating)

/-- What a pass has done so far, whether or not a state has changed since it began. -/
def PassOrdered (hub : OverlayHub ι) : Option (ReconcilePass ι) → Prop
  | some (.revoke _) => hub.active = false
  | some (.scan _ rest) => hub.active = true ∧ ∃ done, hub.order = done ++ rest ∧
      ∀ view ∈ done, hub.stands view = false ∧ hub.Kept view
  | some (.look _ view rest) => hub.active = true ∧ hub.wanted view = true ∧
      ∃ done, hub.order = done ++ view :: rest ∧
        ∀ view ∈ done, hub.stands view = false ∧ hub.Kept view
  | some (.settle frontier within rest) => hub.active = true ∧ frontier = hub.frontier ∧
      (∀ view ∈ downTo hub.stands hub.order, hub.Kept view) ∧
      (∀ view presented, frontier = some view → hub.presentedView = some presented →
        presented = view) ∧
      ∃ done, hub.order = done ++ rest ∧
        (within = true ↔ ∀ view ∈ done, hub.frontier ≠ some view) ∧
        ∀ view ∈ done, view ∉ downTo hub.stands hub.order → hub.wanted view = false
  | some (.authorize frontier) => hub.active = true ∧ frontier = hub.frontier ∧
      (∀ view ∈ downTo hub.stands hub.order, hub.Kept view) ∧
      ∀ view ∈ hub.order, view ∉ downTo hub.stands hub.order → hub.wanted view = false
  | some .finish => True
  | none => True

structure Exclusive (hub : OverlayHub ι) : Prop where
  apart : ∀ view, hub.asked = some view → hub.handling ≠ some view
  handling : ∀ view, hub.handling = some view → hub.active = true → hub.Overtaken view
  pass : hub.PassOrdered hub.pass

/-- While a view goes on, the quiet views stay as they are. -/
structure Calm (hub after : OverlayHub ι) : Prop where
  order : after.order = hub.order
  active : after.active = hub.active
  presentedView : after.presentedView = hub.presentedView
  handling : after.handling = hub.handling
  wanted : ∀ view, after.wanted view = hub.wanted view
  quiet : ∀ view, (hub.views view).Quiet →
    (after.views view).Quiet ∧ after.displayState view = hub.displayState view
  revoked : ∀ view, (hub.views view).Revoked → (after.views view).Revoked

theorem stands_eq (hstate : after.displayState view = hub.displayState view) :
    after.stands view = hub.stands view := by
  rw [stands, confirmed, exclusive, hstate, stands, confirmed, exclusive]

theorem Overtaken.of_calm (hovertaken : hub.Overtaken view) (hcalm : Calm hub after) :
    after.Overtaken view := by
  rcases hovertaken with hfront | ⟨hdown, hrevoked, hquiet⟩
  · refine Or.inl fun front back horder other hother => ?_
    rw [hcalm.order] at horder
    obtain ⟨hstands, hquiet⟩ := hfront front back horder other hother
    obtain ⟨hquiet', hstate⟩ := hcalm.quiet other hquiet
    exact ⟨(stands_eq hstate).trans hstands, hquiet'⟩
  · have hsame := (downTo_congr fun other hother =>
      stands_eq (hcalm.quiet other (hquiet other hother).1).2).1
    rw [← hcalm.order] at hsame
    refine Or.inr ⟨?_, hcalm.revoked view hrevoked, fun other hother => ?_⟩
    · rw [hsame, hcalm.order]
      exact hdown
    · rw [hsame, hcalm.order] at hother
      obtain ⟨hquiet', hstate⟩ := hcalm.quiet other (hquiet other hother).1
      rw [hstate]
      exact ⟨hquiet', (hquiet other hother).2⟩

/-- Within a pass the view whose event it runs in does not go on. -/
theorem PassOrdered.of_calm {pass : Option (ReconcilePass ι)} (hpass : hub.PassOrdered pass)
    (hcalm : Calm hub after)
    (hhandling : ∀ view, hub.handling = some view →
      after.displayState view = hub.displayState view) : after.PassOrdered pass := by
  have hkept : ∀ view, hub.Kept view → after.Kept view ∧ after.stands view = hub.stands view := by
    rintro view (hview | hquiet)
    · exact ⟨Or.inl (hcalm.handling.trans hview), stands_eq (hhandling view hview)⟩
    · obtain ⟨hquiet', hstate⟩ := hcalm.quiet view hquiet
      exact ⟨Or.inr hquiet', stands_eq hstate⟩
  have hdone : ∀ {done : List ι}, (∀ view ∈ done, hub.stands view = false ∧ hub.Kept view) →
      ∀ view ∈ done, after.stands view = false ∧ after.Kept view := by
    intro done hdone view hview
    obtain ⟨hstands, hview⟩ := hdone view hview
    exact ⟨(hkept view hview).2.trans hstands, (hkept view hview).1⟩
  have hframe : (∀ view ∈ downTo hub.stands hub.order, hub.Kept view) →
      downTo after.stands after.order = downTo hub.stands hub.order ∧
        after.frontier = hub.frontier := by
    intro hdown
    rw [OverlayHub.frontier, hcalm.order]
    exact downTo_congr fun view hview => (hkept view (hdown view hview)).2
  rcases pass with - | pass
  · trivial
  cases pass with
  | revoke rest => exact hcalm.active.trans hpass
  | scan stable rest =>
      obtain ⟨hactive, done, horder, hall⟩ := hpass
      exact ⟨hcalm.active.trans hactive, done, hcalm.order.trans horder, hdone hall⟩
  | look stable view rest =>
      obtain ⟨hactive, hwanted, done, horder, hall⟩ := hpass
      exact ⟨hcalm.active.trans hactive, (hcalm.wanted view).trans hwanted, done,
        hcalm.order.trans horder, hdone hall⟩
  | settle frontier within rest =>
      obtain ⟨hactive, hfrontier, hdown, hpresented, done, horder, hwithin, hwanted⟩ := hpass
      obtain ⟨hsame, hafter⟩ := hframe hdown
      refine ⟨hcalm.active.trans hactive, hfrontier.trans hafter.symm, fun view hview => ?_, ?_,
        done, hcalm.order.trans horder, ?_, fun view hview hother => ?_⟩
      · exact (hkept view (hdown view (hsame ▸ hview))).1
      · rw [hcalm.presentedView]
        exact hpresented
      · rw [hafter]
        exact hwithin
      · exact (hcalm.wanted view).trans (hwanted view hview (hsame ▸ hother))
  | authorize frontier =>
      obtain ⟨hactive, hfrontier, hdown, hwanted⟩ := hpass
      obtain ⟨hsame, hafter⟩ := hframe hdown
      refine ⟨hcalm.active.trans hactive, hfrontier.trans hafter.symm, fun view hview => ?_,
        fun view hview hother => ?_⟩
      · exact (hkept view (hdown view (hsame ▸ hview))).1
      · exact (hcalm.wanted view).trans (hwanted view (hcalm.order ▸ hview) (hsame ▸ hother))
  | finish => trivial

/-! ## The steps of a pass -/

variable [DecidableEq ι]

theorem views_request (requested : Bool) (other : ι) : (hub.request view requested).views other =
    if other = view then (hub.views view).setPresentationRequested requested
    else hub.views other := by
  rw [request, ask]
  simp only
  split_ifs with hother
  · rw [hother, Function.update_self]
  · rw [Function.update_of_ne hother]

theorem quiet_request {requested : Bool} {other : ι} (hquiet : (hub.views other).Quiet)
    (hrequested : other = view → requested = true) :
    ((hub.request view requested).views other).Quiet := by
  rw [views_request]
  split_ifs with hother
  · rw [hrequested hother, ← hother]
    exact hquiet.requestAgain
  · exact hquiet

theorem kept_request {requested : Bool} {other : ι} (hkept : hub.Kept other)
    (hrequested : other = view → requested = true) :
    (hub.request view requested).Kept other :=
  hkept.imp_right fun hquiet => quiet_request hquiet hrequested

/-- A pass requests the views down to the frontier and revokes the others. -/
theorem Overtaken.request {requested : Bool} {handled : ι} (hovertaken : hub.Overtaken handled)
    (hnodup : hub.order.Nodup)
    (hrequested : requested = true ↔ view ∈ downTo hub.stands hub.order) :
    (hub.request view requested).Overtaken handled := by
  rw [Overtaken, stands_request]
  rcases hovertaken with hfront | ⟨hdown, hrevoked, hquiet⟩
  · refine Or.inl fun front back horder other hother => ?_
    have hall := hfront front back horder
    refine ⟨(hall other hother).1, quiet_request (hall other hother).2 ?_⟩
    rintro rfl
    obtain ⟨before, behind, hsplit⟩ := List.append_of_mem hother
    have horder' : hub.order = before ++ other :: (behind ++ handled :: back) := by
      rw [show hub.order = front ++ handled :: back from horder, hsplit, List.append_assoc]
      rfl
    refine hrequested.2 ?_
    rw [horder', mem_downTo_iff (horder' ▸ hnodup)]
    intro earlier hearlier
    exact (hall earlier (hsplit ▸ List.mem_append_left _ hearlier)).1
  · refine Or.inr ⟨hdown, ?_, fun other hother => ?_⟩
    · rw [views_request]
      split_ifs with hsame
      · have hfalse : requested = false :=
          Bool.eq_false_iff.2 fun htrue => hdown (hsame ▸ hrequested.1 htrue)
        rw [hfalse, ← hsame]
        exact hrevoked.post (by rintro ⟨⟩)
      · exact hrevoked
    · refine ⟨quiet_request (hquiet other hother).1 ?_, ?_⟩
      · rintro rfl
        exact hrequested.2 hother
      · rw [displayState, views_request]
        split_ifs with hsame
        · rw [← hsame]
          exact (hquiet other hother).2
        · exact (hquiet other hother).2

/-- A view that has processed the request of a pass is quiet, or the pass runs within its event. -/
theorem Controlled.kept (hcontrolled : hub.Controlled endpoint) (hasked : hub.asked = none)
    (hwanted : hub.wanted view = true) : hub.Kept view := by
  by_cases hhandling : hub.handling = some view
  · exact Or.inl hhandling
  · have hidle := hcontrolled.idle view (by rw [hasked]; rintro ⟨⟩) hhandling
    exact Or.inr (hidle.quiet (hcontrolled.views view) hwanted)

theorem apart_ask {asking : ProcessingView → ProcessingView} (other : ι)
    (hasked : (hub.ask view asking).asked = some other) :
    (hub.ask view asking).handling ≠ some other := by
  simp only [ask] at hasked ⊢
  split_ifs at hasked with hhandling
  rw [← Option.some_inj.1 hasked]
  exact hhandling

theorem passOrdered_beginPass (hub : OverlayHub ι) :
    hub.beginPass.PassOrdered hub.beginPass.pass := by
  by_cases hactive : hub.active = true
  · rw [show hub.beginPass.pass = _ from congrArg some (if_pos hactive)]
    exact ⟨hactive, [], rfl, by rintro view ⟨⟩⟩
  · rw [show hub.beginPass.pass = _ from congrArg some (if_neg hactive)]
    exact Bool.eq_false_iff.2 hactive

/-- In scanning, a view that is asked lies down to the frontier. -/
theorem Exclusive.scan {stable : Option ι} {rest : List ι} (hexclusive : hub.Exclusive)
    (hcontrolled : hub.Controlled endpoint)
    (hpass : hub.pass = some (.scan stable rest)) :
    (hub.stepPass (.scan stable rest)).Exclusive := by
  obtain ⟨hactive, done, horder, hdone⟩ := hpass ▸ hexclusive.pass
  cases rest with
  | nil =>
      rw [List.append_nil] at horder
      have hnone : hub.frontier = none := by
        rw [frontier, horder]
        exact List.find?_eq_none.2 fun view hview => by simp [(hdone view hview).1]
      refine ⟨fun view hview => ?_, hexclusive.handling, hactive, hnone.symm, fun view hview => ?_,
        by rintro view presented ⟨⟩, [], rfl, iff_of_true rfl (by rintro view ⟨⟩),
        by rintro view ⟨⟩⟩
      · exact hexclusive.apart view hview
      · exact (hdone view (horder ▸ mem_of_mem_downTo hview)).2
  | cons view rest =>
      have hdown : view ∈ downTo hub.stands hub.order := by
        rw [horder, mem_downTo_iff (horder ▸ hcontrolled.nodup)]
        exact fun other hother => (hdone other hother).1
      rw [OverlayHub.stepPass]
      refine ⟨apart_ask, fun handled hhandled _ => ?_, hactive, ?_, done, horder,
        fun other hother => ?_⟩
      · have hovertaken : Overtaken { hub with pass := some (.look stable view rest) } handled :=
          hexclusive.handling handled hhandled hactive
        exact hovertaken.request hcontrolled.nodup (iff_of_true rfl hdown)
      · rw [wanted_request, if_pos rfl]
      · rw [stands_request]
        exact ⟨(hdone other hother).1, kept_request (hdone other hother).2 fun _ => rfl⟩

theorem Exclusive.look {stable : Option ι} {rest : List ι} (hexclusive : hub.Exclusive)
    (hcontrolled : hub.Controlled endpoint) (hasked : hub.asked = none)
    (hpass : hub.pass = some (.look stable view rest)) :
    (hub.stepPass (.look stable view rest)).Exclusive := by
  obtain ⟨hactive, hwanted, done, horder, hdone⟩ := hpass ▸ hexclusive.pass
  have hkept : hub.Kept view := hcontrolled.kept hasked hwanted
  have hsettle : ∀ presented : Option ι, hub.stands view = true →
      (∀ other, presented = some other → other = view) →
      Exclusive { hub with
        presentedView := presented
        pass := some (.settle (some view) true hub.order) } := by
    intro presented hstands hpresented
    have hfrontier : hub.frontier = some view := by
      rw [frontier, horder]
      exact find?_of_front (fun other hother => (hdone other hother).1) hstands
    refine ⟨hexclusive.apart, hexclusive.handling, hactive, hfrontier.symm, fun other hother => ?_,
      fun first other hfirst hother => ?_, [], rfl, iff_of_true rfl (by rintro other ⟨⟩),
      by rintro other ⟨⟩⟩
    · have hmem : other ∈ done ++ view :: rest := horder ▸ mem_of_mem_downTo hother
      rcases List.mem_append.1 hmem with hmem | hmem
      · exact (hdone other hmem).2
      · by_cases hsame : other = view
        · rw [hsame]
          exact hkept
        · -- Behind the frontier nothing is left.
          have hrest := (List.mem_cons.1 hmem).resolve_left hsame
          obtain ⟨before, behind, hsplit⟩ := List.append_of_mem hrest
          have horder' : hub.order = (done ++ view :: before) ++ other :: behind := by
            rw [horder, hsplit, List.append_assoc]
            rfl
          have hfalse : hub.stands view = false := by
            have hother : other ∈ downTo hub.stands hub.order := hother
            rw [horder', mem_downTo_iff (horder' ▸ hcontrolled.nodup)] at hother
            exact hother view (List.mem_append_right _ List.mem_cons_self)
          rw [hstands] at hfalse
          cases hfalse
    · rw [hpresented other hother]
      exact Option.some_inj.1 hfirst
  rw [OverlayHub.stepPass]
  split_ifs with hconfirmed hstanding
  · exact hsettle (some view) (by rw [stands, hconfirmed, Bool.true_or]) fun other hother =>
      (Option.some_inj.1 hother).symm
  · exact hsettle none (by rw [stands, hstanding, Bool.or_true]) (by rintro other ⟨⟩)
  · refine ⟨hexclusive.apart, hexclusive.handling, hactive, done ++ [view],
      horder.trans (List.append_cons done view rest), fun other hother => ?_⟩
    rcases List.mem_append.1 hother with hother | hother
    · exact hdone other hother
    · rw [List.mem_singleton.1 hother]
      exact ⟨Bool.or_eq_false_iff.2
        ⟨Bool.eq_false_iff.2 hconfirmed, Bool.eq_false_iff.2 hstanding⟩, hkept⟩

theorem Exclusive.settle {frontier : Option ι} {within : Bool} {rest : List ι}
    (hexclusive : hub.Exclusive) (hcontrolled : hub.Controlled endpoint)
    (hpass : hub.pass = some (.settle frontier within rest)) :
    (hub.stepPass (.settle frontier within rest)).Exclusive := by
  obtain ⟨hactive, hfrontier, hdown, hpresented, done, horder, hwithin, hwanted⟩ :=
    hpass ▸ hexclusive.pass
  cases rest with
  | nil =>
      rw [List.append_nil] at horder
      exact ⟨hexclusive.apart, hexclusive.handling, hactive, hfrontier, hdown,
        fun view hview => hwanted view (horder ▸ hview)⟩
  | cons view rest =>
      have hrequests := settle_requests hcontrolled.nodup horder (hfrontier ▸ hpresented) hwithin
      rw [OverlayHub.stepPass]
      refine ⟨apart_ask, fun handled hhandled _ => ?_, hactive, ?_, fun other hother => ?_,
        hpresented, done ++ [view], horder.trans (List.append_cons done view rest), ?_,
        fun other hother hbehind => ?_⟩
      · have hovertaken : Overtaken { hub with
            pass := some (.settle frontier (within && decide (frontier ≠ some view)) rest) }
              handled := hexclusive.handling handled hhandled hactive
        exact hovertaken.request hcontrolled.nodup hrequests
      · rw [frontier_request]
        exact hfrontier
      · rw [stands_request] at hother
        exact kept_request (hdown other hother) fun hsame => hrequests.2 (hsame ▸ hother)
      · rw [frontier_request, Bool.and_eq_true, decide_eq_true_iff, hfrontier, hwithin,
          List.forall_mem_append, List.forall_mem_singleton]
        rfl
      · rw [stands_request] at hbehind
        rw [wanted_request]
        split_ifs with hsame
        · exact Bool.eq_false_iff.2 fun htrue => hbehind (hsame ▸ hrequests.1 htrue)
        · refine hwanted other ((List.mem_append.1 hother).resolve_right fun hlast => ?_) hbehind
          exact hsame (List.mem_singleton.1 hlast)

/-- The view that is authorised stands, so that it is not in front of the view whose event the
pass runs in, and it is not the one that keeps that view withdrawn. -/
theorem Exclusive.authorize {frontier : Option ι} (hexclusive : hub.Exclusive)
    (hpass : hub.pass = some (.authorize frontier)) :
    (hub.stepPass (.authorize frontier)).Exclusive := by
  obtain ⟨hactive, hfrontier, -, -⟩ := hpass ▸ hexclusive.pass
  rw [OverlayHub.stepPass]
  split
  · rename_i view hactivating
    obtain ⟨hview, hstate⟩ := Option.filter_eq_some_iff.1 hactivating
    have hfound : hub.order.find? hub.stands = some view := hfrontier.symm.trans hview
    refine ⟨apart_ask, fun handled hhandled _ => ?_, trivial⟩
    have hviews : ∀ other, other ≠ view → ({ hub with pass := some .finish }.ask view
        authorizePresentationActivation).views other = hub.views other :=
      fun other hother => Function.update_of_ne hother _ _
    rw [Overtaken, stands_ask rfl]
    rcases hexclusive.handling handled hhandled hactive with hfront | ⟨hdown, hrevoked, hquiet⟩
    · refine Or.inl fun front back horder other hother => ?_
      obtain ⟨hstands, hquiet⟩ := hfront front back horder other hother
      rw [hviews other fun hsame => ?_]
      · exact ⟨hstands, hquiet⟩
      · rw [hsame, List.find?_some hfound] at hstands
        cases hstands
    · exact absurd (beq_iff_eq.1 hstate) (hquiet view (mem_downTo_of_find? hfound)).2
  · exact ⟨hexclusive.apart, hexclusive.handling, trivial⟩

theorem Exclusive.beginPass (hexclusive : hub.Exclusive) : hub.beginPass.Exclusive :=
  ⟨hexclusive.apart, hexclusive.handling, passOrdered_beginPass hub⟩

theorem Exclusive.stepPass {pass : ReconcilePass ι} (hexclusive : hub.Exclusive)
    (hcontrolled : hub.Controlled endpoint) (hasked : hub.asked = none)
    (hpass : hub.pass = some pass) : (hub.stepPass pass).Exclusive := by
  cases pass with
  | revoke rest =>
      have hordered := hexclusive.pass
      rw [hpass] at hordered
      have hinactive : hub.active = false := hordered
      cases rest with
      | nil => exact ⟨hexclusive.apart, hexclusive.handling, trivial⟩
      | cons view rest =>
          refine ⟨apart_ask, fun handled hhandled hactive => ?_, hinactive⟩
          exact absurd (hinactive.symm.trans hactive) Bool.false_ne_true
  | scan stable rest => exact hexclusive.scan hcontrolled hpass
  | look stable view rest => exact hexclusive.look hcontrolled hasked hpass
  | settle frontier within rest => exact hexclusive.settle hcontrolled hpass
  | authorize frontier => exact hexclusive.authorize hpass
  | finish =>
      rw [OverlayHub.stepPass]
      split_ifs
      · exact hexclusive.beginPass
      · exact ⟨hexclusive.apart, hexclusive.handling, trivial⟩

/-! ## Runs -/

theorem Exclusive.reconcilePresentation (hexclusive : hub.Exclusive) :
    hub.reconcilePresentation.Exclusive := by
  rw [OverlayHub.reconcilePresentation]
  split_ifs
  · have hcalm : Calm hub { hub with reconcilePending := true } :=
      ⟨rfl, rfl, rfl, rfl, fun _ => rfl, fun _ hquiet => ⟨hquiet, rfl⟩, fun _ => id⟩
    exact ⟨hexclusive.apart, hexclusive.handling, hexclusive.pass.of_calm hcalm fun _ _ => rfl⟩
  · exact hexclusive.beginPass

theorem calm_update (hsound : (hub.views view).Sound (endpoint view)) (answer : Answer) :
    Calm hub { hub with
      views := Function.update hub.views view ((hub.views view).work (endpoint view) answer) } where
  order := rfl
  active := rfl
  presentedView := rfl
  handling := rfl
  wanted other := by
    by_cases hother : other = view
    · simp only [wanted, hother, Function.update_self]
      exact wanted_work hsound answer
    · simp only [wanted, Function.update_of_ne hother]
  quiet other hquiet := by
    by_cases hother : other = view
    · simp only [displayState, hother, Function.update_self]
      exact (hother ▸ hquiet).work answer
    · simp only [displayState, Function.update_of_ne hother]
      exact ⟨hquiet, trivial⟩
  revoked other hrevoked := by
    by_cases hother : other = view
    · simp only [hother, Function.update_self]
      exact (hother ▸ hrevoked).work hsound answer
    · simp only [Function.update_of_ne hother]
      exact hrevoked

theorem Exclusive.workView (hexclusive : hub.Exclusive)
    (hsound : (hub.views view).Sound (endpoint view))
    (hbusy : hub.asked = some view ∨ hub.pass = none) (answer : Answer) :
    (hub.workView endpoint view answer).Exclusive := by
  have hcalm := calm_update hsound answer
  have hworked : Exclusive { hub with
      views := Function.update hub.views view ((hub.views view).work (endpoint view) answer) } := by
    refine ⟨hexclusive.apart, fun handled hhandled hactive => ?_, ?_⟩
    · exact (hexclusive.handling handled hhandled hactive).of_calm hcalm
    · rcases hbusy with hasked | hnone
      · refine hexclusive.pass.of_calm hcalm fun other hother => ?_
        have hapart : other ≠ view := by
          rintro rfl
          exact hexclusive.apart other hasked hother
        simp only [displayState, Function.update_of_ne hapart]
      · simp only [hnone]
        trivial
  rw [OverlayHub.workView]
  split_ifs
  · exact hworked.reconcilePresentation
  · exact hworked

theorem Exclusive.proceed (hexclusive : hub.Exclusive) (hsound : hub.Sound endpoint)
    (answer : Answer) : (hub.proceed endpoint answer).Exclusive := by
  rw [OverlayHub.proceed]
  split
  · rename_i view hasked
    split_ifs
    · have hcalm : Calm hub { hub with asked := none } :=
        ⟨rfl, rfl, rfl, rfl, fun _ => rfl, fun _ hquiet => ⟨hquiet, rfl⟩, fun _ => id⟩
      exact ⟨by rintro other ⟨⟩, hexclusive.handling, hexclusive.pass.of_calm hcalm fun _ _ => rfl⟩
    · exact hexclusive.workView (hsound.views view) (Or.inl hasked) answer
  · rename_i hasked
    split
    · rename_i pass hpass
      exact hexclusive.stepPass hsound.toControlled hasked hpass
    · rename_i hpass
      split
      · rename_i view _
        split_ifs
        · refine ⟨fun other hother => ?_, by rintro other ⟨⟩, ?_⟩
          · rw [show ({ hub with handling := none } : OverlayHub ι).asked = none from hasked]
              at hother
            cases hother
          · simp only [hpass]
            trivial
        · exact hexclusive.workView (hsound.views view) (Or.inr hpass) answer
      · exact hexclusive

/-- A view that starts to handle an event finds the others as the last pass has left them. -/
theorem overtaken_of_atRest {arriving : ProcessingView → ProcessingView}
    (hsound : hub.Sound endpoint) (hrest : hub.AtRest) (hactive : hub.active = true)
    (hmem : view ∈ hub.order)
    (hstate : (arriving (hub.views view)).displayState = hub.displayState view)
    (hrevoked : (hub.views view).Revoked → (arriving (hub.views view)).Revoked) :
    Overtaken { hub with
      views := Function.update hub.views view (arriving (hub.views view))
      handling := some view } view := by
  obtain ⟨hsettled, hauthorized⟩ := hsound.settled_of_atRest hrest
  have hidle := hsound.idle_of_atRest hrest
  have hstands : (OverlayHub.stands { hub with
      views := Function.update hub.views view (arriving (hub.views view))
      handling := some view }) = hub.stands := by
    funext other
    refine stands_eq ?_
    by_cases hother : other = view
    · simp only [displayState, hother, Function.update_self]
      exact hstate
    · simp only [displayState, Function.update_of_ne hother]
  have hquiet : ∀ other ∈ downTo hub.stands hub.order, (hub.views other).Quiet := by
    intro other hother
    exact (hidle other).quiet (hsound.views other)
      ((hsettled.wanted other (mem_of_mem_downTo hother)).2 ⟨hactive, hother⟩)
  rw [Overtaken, hstands]
  by_cases hdown : view ∈ downTo hub.stands hub.order
  · refine Or.inl fun front back horder other hother => ?_
    have horder : hub.order = front ++ view :: back := horder
    have hsplit : (front ++ view :: back).Nodup := horder ▸ hsound.nodup
    have hfront : ∀ earlier ∈ front, hub.stands earlier = false := by
      rw [horder, mem_downTo_iff hsplit] at hdown
      exact hdown
    have hapart : other ≠ view := by
      rintro rfl
      exact (List.nodup_append.1 hsplit).2.2 other hother other List.mem_cons_self rfl
    obtain ⟨before, behind, hbetween⟩ := List.append_of_mem hother
    have horder' : hub.order = before ++ other :: (behind ++ view :: back) := by
      rw [horder, hbetween, List.append_assoc]
      rfl
    refine ⟨hfront other hother, ?_⟩
    simp only [Function.update_of_ne hapart]
    refine hquiet other ?_
    rw [horder', mem_downTo_iff (horder' ▸ hsound.nodup)]
    exact fun earlier hearlier => hfront earlier (hbetween ▸ List.mem_append_left _ hearlier)
  · refine Or.inr ⟨hdown, ?_, fun other hother => ?_⟩
    · simp only [Function.update_self]
      refine hrevoked ⟨?_, ?_⟩
      · rw [← (hidle view).wanted]
        exact Bool.eq_false_iff.2 fun hwanted => hdown ((hsettled.wanted view hmem).1 hwanted).2
      · rw [(hidle view).1]
        rintro ⟨⟩
    · have hapart : other ≠ view := fun hsame => hdown (hsame ▸ hother)
      simp only [displayState, Function.update_of_ne hapart]
      refine ⟨hquiet other hother, fun hactivating => ?_⟩
      have hstanding : hub.stands other = true := by
        rw [stands, confirmed, exclusive, displayState, hactivating]
        rfl
      exact (hidle other).not_authorized
        (hauthorized hactive other (eq_of_mem_downTo hother hstanding) hactivating)

theorem Exclusive.handle {arriving : ProcessingView → ProcessingView} (hexclusive : hub.Exclusive)
    (hsound : hub.Sound endpoint) (hrest : hub.AtRest)
    (hstate : (arriving (hub.views view)).displayState = hub.displayState view)
    (hrevoked : (hub.views view).Revoked → (arriving (hub.views view)).Revoked) :
    (hub.handle view arriving).Exclusive := by
  rw [OverlayHub.handle]
  split_ifs with hmem
  · refine ⟨fun other hother => ?_, fun handled hhandled hactive => ?_, ?_⟩
    · have hasked : hub.asked = some other := hother
      rw [hrest.1] at hasked
      cases hasked
    · obtain rfl : view = handled := Option.some_inj.1 hhandled
      exact overtaken_of_atRest hsound hrest hactive hmem hstate hrevoked
    · simp only [hrest.2.1]
      trivial
  · exact hexclusive

/-- A hub that is called at rest reconciles within no event. -/
theorem Exclusive.call (hrest : hub.AtRest) (hcontrol : after.asked = hub.asked ∧
    after.pass = hub.pass ∧ after.handling = hub.handling) :
    after.reconcilePresentation.Exclusive := by
  refine Exclusive.reconcilePresentation ⟨fun view hview => ?_, fun view hview => ?_, ?_⟩
  · rw [hcontrol.1, hrest.1] at hview
    cases hview
  · rw [hcontrol.2.2, hrest.2.2] at hview
    cases hview
  · rw [hcontrol.2.1, hrest.2.1]
    trivial

theorem Exclusive.step (hexclusive : hub.Exclusive) (hsound : hub.Sound endpoint)
    (move : Move ι) : (hub.step endpoint move).Exclusive := by
  cases move with
  | proceed answer => exact hexclusive.proceed hsound answer
  | registerView view =>
      rw [OverlayHub.step, OverlayHub.registerView]
      split_ifs with hrest hknown
      · exact hexclusive
      · exact Exclusive.call hrest ⟨rfl, rfl, rfl⟩
      · exact hexclusive
  | applyUsageState available =>
      rw [OverlayHub.step]
      split_ifs with hrest
      · exact Exclusive.call hrest ⟨rfl, rfl, rfl⟩
      · exact hexclusive
  | setRequestedVisible visible =>
      rw [OverlayHub.step]
      split_ifs with hrest
      · exact Exclusive.call hrest ⟨rfl, rfl, rfl⟩
      · exact hexclusive
  | hideTemporarily =>
      rw [OverlayHub.step]
      split_ifs with hrest
      · exact Exclusive.call hrest ⟨rfl, rfl, rfl⟩
      · exact hexclusive
  | restoreAfterTemporaryHide =>
      rw [OverlayHub.step]
      split_ifs with hrest
      · exact Exclusive.call hrest ⟨rfl, rfl, rfl⟩
      · exact hexclusive
  | notify view notification =>
      rw [OverlayHub.step]
      split_ifs with hrest
      · refine hexclusive.handle hsound hrest rfl fun hrevoked => hrevoked.post ?_
        cases notification <;> rintro ⟨⟩
      · exact hexclusive
  | timeout view timer =>
      rw [OverlayHub.step]
      split_ifs with hrest
      · exact hexclusive.handle hsound hrest (displayState_timeout timer) fun hrevoked =>
          hrevoked.timeout timer
      · exact hexclusive

/-! ## Activation -/

/-- A view that stands behind the frontier would not have handled its requests, and the view
within whose event the hub reconciles cannot be such a view. -/
theorem Exclusive.frontier_of_stands (hexclusive : hub.Exclusive)
    (hcontrolled : hub.Controlled endpoint) (hasked : hub.asked = none)
    (hactive : hub.active = true)
    (hwanted : view ∉ downTo hub.stands hub.order → hub.wanted view = false)
    (hmem : view ∈ hub.order) (hstands : hub.stands view = true) : hub.frontier = some view := by
  by_cases hdown : view ∈ downTo hub.stands hub.order
  · exact eq_of_mem_downTo hdown hstands
  · have hrequested := requested_of_stands (hcontrolled.views view) hstands
    by_cases hhandling : hub.handling = some view
    · rcases hexclusive.handling view hhandling hactive with hfront | ⟨-, hrevoked, -⟩
      · obtain ⟨front, back, horder⟩ := List.append_of_mem hmem
        refine absurd ?_ hdown
        rw [horder, mem_downTo_iff (horder ▸ hcontrolled.nodup)]
        exact fun other hother => (hfront front back horder other hother).1
      · rw [hrevoked.requested] at hrequested
        cases hrequested
    · have hidle := hcontrolled.idle view (by rw [hasked]; rintro ⟨⟩) hhandling
      have hfalse : (hub.views view).wanted = false := hwanted hdown
      rw [hidle.wanted, hrequested] at hfalse
      cases hfalse

/-- A view that is asked may not be activated, unless the hub has just authorised it. -/
structure Arbitrated (hub : OverlayHub ι) : Prop where
  member : ∀ view, hub.handling = some view → view ∈ hub.order
  revoked : ∀ view, hub.handling = some view → hub.active = false → (hub.views view).Revoked
  answering : ∀ view, hub.asked = some view → hub.pass ≠ some .finish →
    (hub.views view).Answering
  finishing : ∀ view, hub.asked = some view → hub.pass = some .finish →
    ∀ other ∈ hub.order, other ≠ view → hub.stands other = false

omit [DecidableEq ι] in
/-- As long as no view is asked, only the view that handles an event matters. -/
theorem Arbitrated.of_unasked (harbitrated : hub.Arbitrated) (hasked : after.asked = none)
    (hsame : after.order = hub.order ∧ after.active = hub.active ∧ after.handling = hub.handling)
    (hrevoked : ∀ view, (hub.views view).Revoked → (after.views view).Revoked) :
    after.Arbitrated where
  member view hview := hsame.1 ▸ harbitrated.member view (hsame.2.2 ▸ hview)
  revoked view hview hactive :=
    hrevoked view (harbitrated.revoked view (hsame.2.2 ▸ hview) (hsame.2.1 ▸ hactive))
  answering view hview := by
    rw [hasked] at hview
    cases hview
  finishing view hview := by
    rw [hasked] at hview
    cases hview

theorem Arbitrated.request {pass : ReconcilePass ι} {requested : Bool}
    (harbitrated : hub.Arbitrated) (hcontrolled : hub.Controlled endpoint)
    (hasked : hub.asked = none) (hother : pass ≠ .finish)
    (hinactive : hub.active = false → requested = false) :
    ({ hub with pass := some pass }.request view requested).Arbitrated where
  member := harbitrated.member
  revoked other hhandling hactive := by
    have hrevoked := harbitrated.revoked other hhandling hactive
    rw [views_request]
    split_ifs with hsame
    · rw [hinactive hactive, ← hsame]
      exact hrevoked.post (by rintro ⟨⟩)
    · exact hrevoked
  answering other hother' _ := by
    simp only [OverlayHub.request, ask] at hother'
    split_ifs at hother' with hhandling
    obtain rfl : view = other := Option.some_inj.1 hother'
    have hidle := hcontrolled.idle view (by rw [hasked]; rintro ⟨⟩) hhandling
    rw [views_request, if_pos rfl]
    exact hidle.answering (hcontrolled.views view) requested
  finishing other _ hpass := absurd (Option.some_inj.1 hpass) hother

theorem Arbitrated.stepPass {pass : ReconcilePass ι} (harbitrated : hub.Arbitrated)
    (hexclusive : hub.Exclusive) (hcontrolled : hub.Controlled endpoint)
    (hasked : hub.asked = none) (hpass : hub.pass = some pass) :
    (hub.stepPass pass).Arbitrated := by
  have hordered := hexclusive.pass
  rw [hpass] at hordered
  have hunasked : ∀ (presented : Option ι) (next : Option (ReconcilePass ι)),
      Arbitrated { hub with presentedView := presented, pass := next } :=
    fun _ _ => harbitrated.of_unasked hasked ⟨rfl, rfl, rfl⟩ fun _ => id
  have hbegin : hub.beginPass.Arbitrated :=
    harbitrated.of_unasked hasked ⟨rfl, rfl, rfl⟩ fun _ => id
  have hwanting : hub.active = true → ∀ requested, hub.active = false → requested = false :=
    fun hactive _ hinactive => absurd (hinactive.symm.trans hactive) Bool.false_ne_true
  cases pass with
  | revoke rest =>
      cases rest with
      | nil => exact hunasked none _
      | cons view rest => exact harbitrated.request hcontrolled hasked (by rintro ⟨⟩) fun _ => rfl
  | scan stable rest =>
      cases rest with
      | nil => exact hunasked stable _
      | cons view rest =>
          exact harbitrated.request hcontrolled hasked (by rintro ⟨⟩) (hwanting hordered.1 _)
  | look stable view rest =>
      rw [OverlayHub.stepPass]
      split_ifs
      · exact hunasked (some view) _
      · exact hunasked none _
      · exact hunasked hub.presentedView _
  | settle frontier within rest =>
      cases rest with
      | nil => exact hunasked hub.presentedView _
      | cons view rest =>
          exact harbitrated.request hcontrolled hasked (by rintro ⟨⟩) (hwanting hordered.1 _)
  | authorize frontier =>
      obtain ⟨hactive, hfrontier, -, hwanted⟩ := hordered
      rw [OverlayHub.stepPass]
      split
      · rename_i view hactivating
        have hview := (Option.filter_eq_some_iff.1 hactivating).1
        refine ⟨harbitrated.member, fun other _ hinactive => ?_, fun other _ hcontra => ?_,
          fun other hother _ rival hrival hapart => ?_⟩
        · exact absurd (hinactive.symm.trans hactive) Bool.false_ne_true
        · exact absurd rfl hcontra
        · simp only [ask] at hother
          split_ifs at hother
          obtain rfl : view = other := Option.some_inj.1 hother
          rw [stands_ask rfl]
          refine Bool.eq_false_iff.2 fun hstands => hapart ?_
          have hrival' := hexclusive.frontier_of_stands hcontrolled hasked hactive
            (hwanted rival hrival) hrival hstands
          exact Option.some_inj.1 (hrival'.symm.trans (hfrontier.symm.trans hview))
      · exact hunasked hub.presentedView _
  | finish =>
      rw [OverlayHub.stepPass]
      split_ifs
      · exact hbegin
      · exact hunasked hub.presentedView _

theorem Arbitrated.reconcilePresentation (harbitrated : hub.Arbitrated)
    (hbusy : hub.asked = none ∨ hub.pass.isSome = true) :
    hub.reconcilePresentation.Arbitrated := by
  rw [OverlayHub.reconcilePresentation]
  split_ifs with hsome
  · exact ⟨harbitrated.member, harbitrated.revoked, harbitrated.answering, harbitrated.finishing⟩
  · exact harbitrated.of_unasked (hbusy.resolve_right hsome) ⟨rfl, rfl, rfl⟩ fun _ => id

theorem Arbitrated.workView (harbitrated : hub.Arbitrated) (hcontrolled : hub.Controlled endpoint)
    (hbusy : hub.asked = some view ∨ hub.asked = none) (answer : Answer) :
    (hub.workView endpoint view answer).Arbitrated := by
  have hsound := hcontrolled.views view
  have hworked : Arbitrated { hub with
      views := Function.update hub.views view ((hub.views view).work (endpoint view) answer) } := by
    refine ⟨harbitrated.member, fun other hother hactive => ?_, fun other hother hpass => ?_,
      fun other hother hpass rival hrival hapart => ?_⟩
    · exact (calm_update hsound answer).revoked other (harbitrated.revoked other hother hactive)
    · rcases hbusy with hasked | hnone
      · obtain rfl : view = other := Option.some_inj.1 (hasked.symm.trans hother)
        simp only [Function.update_self]
        exact (harbitrated.answering view hasked hpass).work hsound answer
      · rw [show ({ hub with
            views := Function.update hub.views view _ } : OverlayHub ι).asked = none from hnone]
          at hother
        cases hother
    · rcases hbusy with hasked | hnone
      · obtain rfl : view = other := Option.some_inj.1 (hasked.symm.trans hother)
        refine (stands_eq ?_).trans (harbitrated.finishing view hasked hpass rival hrival hapart)
        simp only [displayState, Function.update_of_ne hapart]
      · rw [show ({ hub with
            views := Function.update hub.views view _ } : OverlayHub ι).asked = none from hnone]
          at hother
        cases hother
  rw [OverlayHub.workView]
  split_ifs
  · refine hworked.reconcilePresentation ?_
    rcases hbusy with hasked | hnone
    · exact Or.inr (hcontrolled.asked (Option.isSome_iff_exists.2 ⟨view, hasked⟩))
    · exact Or.inl hnone
  · exact hworked

theorem Arbitrated.proceed (harbitrated : hub.Arbitrated) (hexclusive : hub.Exclusive)
    (hcontrolled : hub.Controlled endpoint) (answer : Answer) :
    (hub.proceed endpoint answer).Arbitrated := by
  rw [OverlayHub.proceed]
  split
  · rename_i view hasked
    split_ifs
    · exact harbitrated.of_unasked rfl ⟨rfl, rfl, rfl⟩ fun _ => id
    · exact harbitrated.workView hcontrolled (Or.inl hasked) answer
  · rename_i hasked
    split
    · rename_i pass hpass
      exact harbitrated.stepPass hexclusive hcontrolled hasked hpass
    · split
      · rename_i view hhandling
        split_ifs
        · refine ⟨by rintro other ⟨⟩, by rintro other ⟨⟩, ?_, ?_⟩
          · exact fun other hother => harbitrated.answering other hother
          · exact fun other hother => harbitrated.finishing other hother
        · exact harbitrated.workView hcontrolled (Or.inr hasked) answer
      · exact harbitrated

theorem Arbitrated.handle {arriving : ProcessingView → ProcessingView}
    (harbitrated : hub.Arbitrated) (hsound : hub.Sound endpoint) (hrest : hub.AtRest)
    (hrevoked : (hub.views view).Revoked → (arriving (hub.views view)).Revoked) :
    (hub.handle view arriving).Arbitrated := by
  rw [OverlayHub.handle]
  split_ifs with hmem
  · refine ⟨fun other hother => ?_, fun other hother hactive => ?_, fun other hother => ?_,
      fun other hother => ?_⟩
    · rw [← Option.some_inj.1 hother]
      exact hmem
    · obtain rfl : view = other := Option.some_inj.1 hother
      have hactive : hub.active = false := hactive
      have hidle := hsound.idle_of_atRest hrest view
      simp only [Function.update_self]
      refine hrevoked ⟨?_, ?_⟩
      · rw [← hidle.wanted]
        refine Bool.eq_false_iff.2 fun hwanted => ?_
        have hdown := ((hsound.settled_of_atRest hrest).1.wanted view hmem).1 hwanted
        exact absurd (hactive.symm.trans hdown.1) Bool.false_ne_true
      · rw [hidle.1]
        rintro ⟨⟩
    · rw [show ({ hub with views := _, handling := some view } : OverlayHub ι).asked = none
        from hrest.1] at hother
      cases hother
    · rw [show ({ hub with views := _, handling := some view } : OverlayHub ι).asked = none
        from hrest.1] at hother
      cases hother
  · exact harbitrated

theorem Arbitrated.call (hrest : hub.AtRest) (hcontrol : after.asked = hub.asked ∧
    after.handling = hub.handling) : after.reconcilePresentation.Arbitrated := by
  have hasked := hcontrol.1.trans hrest.1
  have hhandling := hcontrol.2.trans hrest.2.2
  refine Arbitrated.reconcilePresentation ⟨fun view hview => ?_, fun view hview => ?_,
    fun view hview => ?_, fun view hview => ?_⟩ (Or.inl hasked)
  · rw [hhandling] at hview
    cases hview
  · rw [hhandling] at hview
    cases hview
  · rw [hasked] at hview
    cases hview
  · rw [hasked] at hview
    cases hview

theorem Arbitrated.step (harbitrated : hub.Arbitrated) (hexclusive : hub.Exclusive)
    (hsound : hub.Sound endpoint) (move : Move ι) : (hub.step endpoint move).Arbitrated := by
  cases move with
  | proceed answer => exact harbitrated.proceed hexclusive hsound.toControlled answer
  | registerView view =>
      rw [OverlayHub.step, OverlayHub.registerView]
      split_ifs with hrest hknown
      · exact harbitrated
      · exact Arbitrated.call hrest ⟨rfl, rfl⟩
      · exact harbitrated
  | applyUsageState available =>
      rw [OverlayHub.step]
      split_ifs with hrest
      · exact Arbitrated.call hrest ⟨rfl, rfl⟩
      · exact harbitrated
  | setRequestedVisible visible =>
      rw [OverlayHub.step]
      split_ifs with hrest
      · exact Arbitrated.call hrest ⟨rfl, rfl⟩
      · exact harbitrated
  | hideTemporarily =>
      rw [OverlayHub.step]
      split_ifs with hrest
      · exact Arbitrated.call hrest ⟨rfl, rfl⟩
      · exact harbitrated
  | restoreAfterTemporaryHide =>
      rw [OverlayHub.step]
      split_ifs with hrest
      · exact Arbitrated.call hrest ⟨rfl, rfl⟩
      · exact harbitrated
  | notify view notification =>
      rw [OverlayHub.step]
      split_ifs with hrest
      · refine harbitrated.handle hsound hrest fun hrevoked => hrevoked.post ?_
        cases notification <;> rintro ⟨⟩
      · exact harbitrated
  | timeout view timer =>
      rw [OverlayHub.step]
      split_ifs with hrest
      · exact harbitrated.handle hsound hrest fun hrevoked => hrevoked.timeout timer
      · exact harbitrated

theorem arbitrated_run (moves : List (Move ι)) :
    Sound endpoint (moves.foldl (OverlayHub.step endpoint) {}) ∧
      (moves.foldl (OverlayHub.step endpoint) {}).Exclusive ∧
      (moves.foldl (OverlayHub.step endpoint) {}).Arbitrated := by
  have hexclusive : ({} : OverlayHub ι).Exclusive :=
    ⟨by rintro view ⟨⟩, by rintro view ⟨⟩, trivial⟩
  have harbitrated : ({} : OverlayHub ι).Arbitrated :=
    ⟨by rintro view ⟨⟩, by rintro view ⟨⟩, by rintro view ⟨⟩, by rintro view ⟨⟩⟩
  refine List.foldlRecOn (motive := fun hub : OverlayHub ι =>
    hub.Sound endpoint ∧ hub.Exclusive ∧ hub.Arbitrated) moves _
    ⟨sound_initial, hexclusive, harbitrated⟩ ?_
  rintro hub ⟨hsound, hexclusive, harbitrated⟩ move -
  exact ⟨hsound.step move, hexclusive.step hsound move, harbitrated.step hexclusive hsound move⟩

/-- Whenever the endpoint of a view is called to activate its presentation, no other view is
confirmed or exclusive, in whichever call of the hub the view goes on. -/
theorem activated_view_stands_alone (endpoint : ι → OverlayHubEndpoint) (moves : List (Move ι))
    (view other : ι) :
    let hub := moves.foldl (OverlayHub.step endpoint) {}
    hub.asked = some view ∨ hub.asked = none ∧ hub.pass.isNone = true ∧ hub.handling = some view →
      (hub.views view).action = .activate → other ∈ hub.order → other ≠ view →
        hub.stands other = false := by
  intro hub hbusy hactivate hmem hapart
  obtain ⟨hsound, hexclusive, harbitrated⟩ : hub.Sound endpoint ∧ hub.Exclusive ∧ hub.Arbitrated :=
    arbitrated_run moves
  rcases hbusy with hasked | ⟨hasked, hpass, hhandling⟩
  · by_cases hfinish : hub.pass = some .finish
    · exact harbitrated.finishing view hasked hfinish other hmem hapart
    · exact absurd hactivate (harbitrated.answering view hasked hfinish).not_activate
  · have hpass := Option.isNone_iff_eq_none.1 hpass
    have hsettled := hsound.pass (hsound.pending hpass)
    rw [hpass] at hsettled
    have hstands : hub.stands view = true := by
      rw [stands, confirmed, exclusive, displayState]
      rcases (hsound.views view).activated hactivate with hstate | hstate <;> rw [hstate] <;> rfl
    cases hactive : hub.active with
    | false =>
        have hrequested := requested_of_stands (hsound.views view) hstands
        rw [(harbitrated.revoked view hhandling hactive).requested] at hrequested
        cases hrequested
    | true =>
        have hfrontier : ∀ rival ∈ hub.order, hub.stands rival = true →
            hub.frontier = some rival := by
          intro rival hrival hstanding
          refine hexclusive.frontier_of_stands hsound.toControlled hasked hactive (fun hdown => ?_)
            hrival hstanding
          exact Bool.eq_false_iff.2 fun hwanted =>
            hdown ((hsettled.1.wanted rival hrival).1 hwanted).2
        refine Bool.eq_false_iff.2 fun hstanding => hapart ?_
        exact Option.some_inj.1 ((hfrontier other hmem hstanding).symm.trans
          (hfrontier view (harbitrated.member view hhandling) hstands))

/-- The floating view presents while the taskbar is unavailable, and is released before the
taskbar is activated within the event of its retry. -/
def takeoverRun : List (Move Bool) :=
  presentingRun ++ .timeout true .retry :: List.replicate 41 (.proceed { attach := .prepared })

theorem taskbar_activated_alone_in_takeoverRun :
    (takeoverRun.foldl (OverlayHub.step floatingBehindTaskbar) {}).stands false = false :=
  activated_view_stands_alone floatingBehindTaskbar takeoverRun true false
    (by decide +kernel) (by decide +kernel) (by decide +kernel) (by decide)

end OverlayHub

end UwfManager
