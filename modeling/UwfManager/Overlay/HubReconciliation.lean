import UwfManager.Library.Frontier
import UwfManager.Overlay.HubViewWaits
import UwfManager.Overlay.OverlayHub

/-!
# What reconciliation settles

A pass reads the display states while it asks the views, so what it decides holds only if no state
has changed meanwhile.  A change makes the hub reconcile again, and the last pass settles.
-/

namespace UwfManager

open OverlayHubView

namespace ProcessingView

variable {endpoint : OverlayHubEndpoint} {processing : ProcessingView} {event : Event}
  {answer : Answer}

/-! ## Requests on their way -/

/-- What a view will be requested to do once it has processed its queue. -/
def wanted (processing : ProcessingView) : Bool :=
  processing.view.events.foldl (fun requested event => event.request?.getD requested)
    processing.view.requested

/-- The authorisation of a view is in its queue, or what follows it is. -/
def Authorized (processing : ProcessingView) : Prop :=
  .activationAuthorized ∈ processing.view.events ∨ processing.Ends .activating

theorem foldl_request?_of_own {posted : List Event} (hown : ∀ event ∈ posted, event.IsOwn)
    (requested : Bool) :
    posted.foldl (fun requested event => event.request?.getD requested) requested = requested := by
  induction posted with
  | nil => rfl
  | cons event rest ih =>
      rw [List.foldl_cons, (hown event List.mem_cons_self).request]
      exact ih fun other hother => hown other (List.mem_cons_of_mem _ hother)

theorem wanted_post : (processing.post event).wanted = event.request?.getD processing.wanted :=
  List.foldl_append

theorem wanted_of_own (hown : event.IsOwn) :
    (processing.post event).wanted = processing.wanted := by
  rw [wanted_post, hown.request, Option.getD_none]

@[simp] theorem wanted_setPresentationRequested (requested : Bool) :
    (processing.setPresentationRequested requested).wanted = requested := by
  cases requested <;> exact wanted_post

theorem Idle.wanted (hidle : processing.Idle) : processing.wanted = processing.view.requested := by
  rw [ProcessingView.wanted, hidle.1, List.foldl_nil]

theorem Idle.not_authorized (hidle : processing.Idle) : ¬ processing.Authorized := by
  rintro (hmem | hends)
  · rw [hidle.1] at hmem
    cases hmem
  · exact hidle.not_ends _ hends

/-- The work of a view does not change what it is wanted for. -/
theorem wanted_work (hsound : processing.Sound endpoint) (answer : Answer) :
    (processing.work endpoint answer).wanted = processing.wanted := by
  rw [work]
  split_ifs with haction
  · split
    · rfl
    · rename_i event rest hevents
      have hstarted : event ≠ .releaseStarted .complete := by
        rintro rfl
        exact hsound.started (hevents ▸ List.mem_cons_self)
      obtain ⟨posted, hown, -, hqueue, hrequested, -⟩ := take_spec endpoint
        { processing.view with events := rest } event answer hstarted
      rw [wanted, hqueue, hrequested, List.foldl_append, foldl_request?_of_own hown, wanted,
        hevents, List.foldl_cons]
  · have hexecuted := execute_executed endpoint processing.view answer
      processing.action
    obtain ⟨posted, hevents, hown, -⟩ := hexecuted.events
    rw [wanted, hevents, List.foldl_append, hexecuted.requested]
    exact foldl_request?_of_own hown _

theorem Authorized.post (hauthorized : processing.Authorized) (event : Event) :
    (processing.post event).Authorized :=
  hauthorized.imp (fun hmem => List.mem_append_left _ hmem) fun hends => hends.post event

theorem displayState_timeout (timer : Timer) :
    (processing.timeout timer).displayState = processing.displayState := by
  cases timer <;> rw [timeout] <;> split_ifs <;> rfl

theorem wanted_timeout (timer : Timer) :
    (processing.timeout timer).wanted = processing.wanted := by
  cases timer <;> rw [timeout] <;> split_ifs
  · exact wanted_of_own ⟨rfl, by rintro ⟨⟩, by rintro ⟨⟩⟩
  · rfl
  · exact wanted_of_own ⟨rfl, by rintro ⟨⟩, by rintro ⟨⟩⟩
  · rfl
  · exact wanted_of_own ⟨rfl, by rintro ⟨⟩, by rintro ⟨⟩⟩
  · rfl

theorem Authorized.timeout (hauthorized : processing.Authorized) (timer : Timer) :
    (processing.timeout timer).Authorized := by
  cases timer <;> rw [ProcessingView.timeout] <;> split_ifs
  · have hstopped : Authorized { processing with
        view := { processing.view with confirmationTimer := false } } := hauthorized
    exact hstopped.post _
  · exact hauthorized
  · have hstopped : Authorized { processing with
        view := { processing.view with retryTimer := false } } := hauthorized
    exact hstopped.post _
  · exact hauthorized
  · exact hauthorized.post _
  · exact hauthorized

/-- As long as a view is activating, its authorisation is not lost. -/
theorem Authorized.work (hauthorized : processing.Authorized) (hsound : processing.Sound endpoint)
    (hbefore : processing.displayState = .activating)
    (hafter : (processing.work endpoint answer).displayState = .activating) :
    (processing.work endpoint answer).Authorized := by
  rw [ProcessingView.work] at hafter ⊢
  split_ifs at hafter ⊢ with haction
  · split at hafter
    · rename_i hevents
      rcases hauthorized with hmem | hends
      · rw [hevents] at hmem
        cases hmem
      · exact absurd hends (Idle.not_ends ⟨hevents, haction⟩ _)
    · rename_i event rest hevents
      have hstarted : event ≠ .releaseStarted .complete := by
        rintro rfl
        exact hsound.started (hevents ▸ List.mem_cons_self)
      obtain ⟨posted, -, -, hqueue, -, hstate, -⟩ := take_spec endpoint
        { processing.view with events := rest } event answer hstarted
      have hnext : (reduce processing.displayState event).nextState = processing.displayState :=
        hstate.symm.trans (hafter.trans hbefore.symm)
      rcases hauthorized with hmem | hends
      · rw [hevents] at hmem
        rcases List.mem_cons.1 hmem with rfl | hmem
        · refine Or.inr (Or.inr ?_)
          rw [take_action]
          change Ending _
            (if (reduce processing.displayState .activationAuthorized).actionBeforeStateChange then
              .none
            else (reduce processing.displayState .activationAuthorized).action)
          rw [hbefore]
          exact ending_of_result (by decide)
        · exact Or.inl (by rw [hqueue]; exact List.mem_append_left _ hmem)
      · rw [← hbefore] at hends
        refine Or.inr ?_
        rw [← hbefore]
        exact hends.take endpoint haction hevents hstarted hnext answer
  · rcases hauthorized with hmem | hends
    · obtain ⟨posted, hevents, -⟩ :=
        (execute_executed endpoint processing.view answer processing.action).events
      exact Or.inl (by rw [hevents]; exact List.mem_append_left _ hmem)
    · exact Or.inr (hends.execute answer)

end ProcessingView

namespace OverlayHub

open ProcessingView Frontier

variable {ι : Type*} {endpoint : ι → OverlayHubEndpoint} {hub after : OverlayHub ι}
  {view : ι} {answer : Answer}

/-! ## What a pass has established -/

/-- A view stands if it presents, or is on its way and must not be overtaken. -/
def stands (hub : OverlayHub ι) (view : ι) : Bool := hub.confirmed view || hub.exclusive view

def frontier (hub : OverlayHub ι) : Option ι := hub.order.find? hub.stands

def wanted (hub : OverlayHub ι) (view : ι) : Bool := (hub.views view).wanted

/-- Exactly the views down to the frontier are wanted, and the frontier is presented if it is
confirmed. -/
structure Settled (hub : OverlayHub ι) : Prop where
  wanted : ∀ view ∈ hub.order,
    (hub.wanted view = true ↔ hub.active = true ∧ view ∈ downTo hub.stands hub.order)
  presented : hub.presentedView =
    if hub.active then hub.frontier.filter hub.confirmed else none

/-- A frontier that is activating has been authorised. -/
def FrontierAuthorized (hub : OverlayHub ι) : Prop :=
  ∀ view, hub.frontier = some view → hub.displayState view = .activating →
    (hub.views view).Authorized

/-- What holds at each point of a pass if no display state has changed since it began, and where
there is no pass. -/
def PassSound (hub : OverlayHub ι) : Option (ReconcilePass ι) → Prop
  | some (.revoke rest) => hub.active = false ∧
      ∃ done, hub.order = done ++ rest ∧ ∀ view ∈ done, hub.wanted view = false
  | some (.scan stable rest) => hub.active = true ∧
      (∀ view, stable = some view → view ∈ hub.order ∧ hub.confirmed view = true) ∧
      ∃ done, hub.order = done ++ rest ∧ ∀ view ∈ done, hub.stands view = false
  | some (.look stable view rest) => hub.active = true ∧
      (∀ view, stable = some view → view ∈ hub.order ∧ hub.confirmed view = true) ∧
      ∃ done, hub.order = done ++ view :: rest ∧ ∀ view ∈ done, hub.stands view = false
  | some (.settle frontier within rest) => hub.active = true ∧ frontier = hub.frontier ∧
      hub.presentedView = hub.frontier.filter hub.confirmed ∧
      ∃ done, hub.order = done ++ rest ∧
        (∀ view ∈ done, (hub.wanted view = true ↔ view ∈ downTo hub.stands hub.order)) ∧
        (within = true ↔ ∀ view ∈ done, hub.frontier ≠ some view)
  | some (.authorize frontier) => hub.active = true ∧ frontier = hub.frontier ∧ hub.Settled
  | some .finish => hub.Settled ∧ (hub.active = true → hub.FrontierAuthorized)
  | none => hub.Settled ∧ (hub.active = true → hub.FrontierAuthorized)

/-! ## Steps that change no display state -/

/-- Two hubs that a pass cannot tell apart. -/
structure Alike (hub after : OverlayHub ι) : Prop where
  order : after.order = hub.order
  active : after.active = hub.active
  presentedView : after.presentedView = hub.presentedView
  displayState : ∀ view, after.displayState view = hub.displayState view
  wanted : ∀ view, after.wanted view = hub.wanted view
  authorized : ∀ view, hub.displayState view = .activating → (hub.views view).Authorized →
    (after.views view).Authorized

theorem alike_withPass (hub : OverlayHub ι) (pass : Option (ReconcilePass ι)) :
    Alike hub { hub with pass := pass } :=
  ⟨rfl, rfl, rfl, fun _ => rfl, fun _ => rfl, fun _ _ hauthorized => hauthorized⟩

theorem Alike.confirmed (halike : Alike hub after) : after.confirmed = hub.confirmed := by
  funext view
  rw [OverlayHub.confirmed, halike.displayState, OverlayHub.confirmed]

theorem Alike.stands (halike : Alike hub after) : after.stands = hub.stands := by
  funext view
  rw [OverlayHub.stands, halike.confirmed, exclusive, halike.displayState, OverlayHub.stands,
    exclusive]

theorem Alike.frontier (halike : Alike hub after) : after.frontier = hub.frontier := by
  rw [OverlayHub.frontier, halike.order, halike.stands, OverlayHub.frontier]

theorem Settled.of_alike (hsettled : hub.Settled) (halike : Alike hub after) : after.Settled where
  wanted view := by
    rw [halike.order, halike.wanted, halike.active, halike.stands]
    exact hsettled.wanted view
  presented := by
    rw [halike.presentedView, halike.active, halike.frontier, halike.confirmed]
    exact hsettled.presented

theorem FrontierAuthorized.of_alike (hauthorized : hub.FrontierAuthorized)
    (halike : Alike hub after) : after.FrontierAuthorized := by
  intro view hfrontier hactivating
  rw [halike.frontier] at hfrontier
  rw [halike.displayState] at hactivating
  exact halike.authorized view hactivating (hauthorized view hfrontier hactivating)

theorem PassSound.of_alike {pass : Option (ReconcilePass ι)} (hpass : hub.PassSound pass)
    (halike : Alike hub after) : after.PassSound pass := by
  have hsettled : hub.Settled ∧ (hub.active = true → hub.FrontierAuthorized) →
      after.Settled ∧ (after.active = true → after.FrontierAuthorized) := by
    rintro ⟨hsettled, hauthorized⟩
    refine ⟨hsettled.of_alike halike, fun hactive => ?_⟩
    rw [halike.active] at hactive
    exact (hauthorized hactive).of_alike halike
  rcases pass with - | pass
  · exact hsettled hpass
  · cases pass with
    | finish => exact hsettled hpass
    | authorize frontier =>
        refine ⟨?_, ?_, hpass.2.2.of_alike halike⟩
        · rw [halike.active]
          exact hpass.1
        · rw [halike.frontier]
          exact hpass.2.1
    | _ =>
        simp only [PassSound, halike.order, halike.active, halike.presentedView, halike.wanted,
          halike.stands, halike.frontier, halike.confirmed] at hpass ⊢
        exact hpass

/-! ## The steps of a pass -/

variable [DecidableEq ι]

section Asking

variable {asking : ProcessingView → ProcessingView}

theorem displayState_ask (hsame : (asking (hub.views view)).displayState = hub.displayState view)
    (other : ι) : (hub.ask view asking).displayState other = hub.displayState other := by
  rw [displayState, ask]
  simp only
  by_cases hother : other = view
  · rw [hother, Function.update_self]
    exact hsame
  · rw [Function.update_of_ne hother]
    rfl

theorem wanted_ask (other : ι) : (hub.ask view asking).wanted other =
    if other = view then (asking (hub.views view)).wanted else hub.wanted other := by
  rw [wanted, ask]
  simp only
  split_ifs with hother
  · rw [hother, Function.update_self]
  · rw [Function.update_of_ne hother]
    rfl

theorem stands_ask (hsame : (asking (hub.views view)).displayState = hub.displayState view) :
    (hub.ask view asking).stands = hub.stands := by
  funext other
  rw [stands, stands, confirmed, confirmed, exclusive, exclusive, displayState_ask hsame]

theorem confirmed_ask (hsame : (asking (hub.views view)).displayState = hub.displayState view) :
    (hub.ask view asking).confirmed = hub.confirmed := by
  funext other
  rw [confirmed, confirmed, displayState_ask hsame]

theorem frontier_ask (hsame : (asking (hub.views view)).displayState = hub.displayState view) :
    (hub.ask view asking).frontier = hub.frontier := by
  rw [frontier, stands_ask hsame]
  rfl

end Asking

theorem wanted_request (requested : Bool) (other : ι) : (hub.request view requested).wanted other =
    if other = view then requested else hub.wanted other := by
  rw [request, wanted_ask, wanted_setPresentationRequested]

theorem stands_request (requested : Bool) : (hub.request view requested).stands = hub.stands :=
  stands_ask rfl

theorem confirmed_request (requested : Bool) :
    (hub.request view requested).confirmed = hub.confirmed :=
  confirmed_ask rfl

theorem frontier_request (requested : Bool) :
    (hub.request view requested).frontier = hub.frontier :=
  frontier_ask rfl

/-- A pass begins with what it was called for. -/
theorem passSound_beginPass (hub : OverlayHub ι) : hub.beginPass.PassSound hub.beginPass.pass := by
  by_cases hactive : hub.active = true
  · rw [show hub.beginPass.pass = _ from congrArg some (if_pos hactive)]
    refine ⟨hactive, fun view hview => ?_, [], rfl, by rintro view ⟨⟩⟩
    obtain ⟨-, hstable⟩ := Option.filter_eq_some_iff.1 hview
    rw [Bool.and_eq_true, decide_eq_true_iff] at hstable
    exact hstable
  · rw [show hub.beginPass.pass = _ from congrArg some (if_neg hactive)]
    exact ⟨Bool.eq_false_iff.2 hactive, [], rfl, by rintro view ⟨⟩⟩

theorem passSound_revoke {rest : List ι} (hpass : hub.PassSound (some (.revoke rest))) :
    (hub.stepPass (.revoke rest)).PassSound (hub.stepPass (.revoke rest)).pass := by
  obtain ⟨hactive, done, horder, hdone⟩ := hpass
  cases rest with
  | nil =>
      rw [List.append_nil] at horder
      refine ⟨⟨fun view hview => ?_, ?_⟩, fun hcontra => ?_⟩
      · have hwanted : hub.wanted view = false := hdone view (horder ▸ hview)
        refine iff_of_false ?_ fun hcontra => ?_
        · exact Bool.eq_false_iff.1 hwanted
        · exact absurd (hactive.symm.trans hcontra.1) Bool.false_ne_true
      · exact (if_neg (Bool.eq_false_iff.1 hactive)).symm
      · exact absurd (hactive.symm.trans hcontra) Bool.false_ne_true
  | cons view rest =>
      rw [OverlayHub.stepPass]
      refine ⟨hactive, done ++ [view], horder.trans (List.append_cons done view rest), ?_⟩
      intro other hother
      rw [wanted_request]
      split_ifs with hsame
      · rfl
      · refine hdone other ((List.mem_append.1 hother).resolve_right fun hlast => ?_)
        exact hsame (List.mem_singleton.1 hlast)

/-- If no view stands, none was stable either. -/
theorem passSound_scan {stable : Option ι} {rest : List ι}
    (hpass : hub.PassSound (some (.scan stable rest))) :
    (hub.stepPass (.scan stable rest)).PassSound (hub.stepPass (.scan stable rest)).pass := by
  obtain ⟨hactive, hstable, done, horder, hdone⟩ := hpass
  cases rest with
  | nil =>
      rw [List.append_nil] at horder
      have hfrontier : hub.frontier = none := by
        rw [frontier, horder]
        exact List.find?_eq_none.2 fun view hview => by simp [hdone view hview]
      have hnone : stable = none := by
        cases stable with
        | none => rfl
        | some view =>
            obtain ⟨hmem, hconfirmed⟩ := hstable view rfl
            have hstands := hdone view (horder ▸ hmem)
            rw [stands, hconfirmed, Bool.true_or] at hstands
            cases hstands
      refine ⟨hactive, hfrontier.symm, ?_, [], rfl, by rintro view ⟨⟩, ?_⟩
      · exact hnone.trans (congrArg (Option.filter hub.confirmed) hfrontier).symm
      · exact iff_of_true rfl (by rintro view ⟨⟩)
  | cons view rest =>
      rw [OverlayHub.stepPass]
      refine ⟨hactive, ?_, done, horder, ?_⟩
      · rw [confirmed_request]
        exact hstable
      · rw [stands_request]
        exact hdone

theorem passSound_look {stable : Option ι} {rest : List ι}
    (hpass : hub.PassSound (some (.look stable view rest))) :
    (hub.stepPass (.look stable view rest)).PassSound
      (hub.stepPass (.look stable view rest)).pass := by
  obtain ⟨hactive, hstable, done, horder, hdone⟩ := hpass
  have hfrontier : hub.stands view = true → hub.frontier = some view := by
    intro hstands
    rw [frontier, horder]
    exact find?_of_front hdone hstands
  rw [OverlayHub.stepPass]
  split_ifs with hconfirmed hexclusive
  · have hstands : hub.frontier = some view :=
      hfrontier (by rw [stands, hconfirmed, Bool.true_or])
    refine ⟨hactive, hstands.symm, ?_, [], rfl, by rintro other ⟨⟩, ?_⟩
    · exact ((congrArg (Option.filter hub.confirmed) hstands).trans
        (Option.filter_some_pos hconfirmed)).symm
    · exact iff_of_true rfl (by rintro other ⟨⟩)
  · have hstands : hub.frontier = some view :=
      hfrontier (by rw [stands, hexclusive, Bool.or_true])
    refine ⟨hactive, hstands.symm, ?_, [], rfl, by rintro other ⟨⟩, ?_⟩
    · exact ((congrArg (Option.filter hub.confirmed) hstands).trans
        (Option.filter_some_neg (Bool.eq_false_iff.2 hconfirmed))).symm
    · exact iff_of_true rfl (by rintro other ⟨⟩)
  · refine ⟨hactive, hstable, done ++ [view], horder.trans (List.append_cons done view rest), ?_⟩
    intro other hother
    rcases List.mem_append.1 hother with hother | hother
    · exact hdone other hother
    · rw [List.mem_singleton.1 hother]
      exact Bool.or_eq_false_iff.2
        ⟨Bool.eq_false_iff.2 hconfirmed, Bool.eq_false_iff.2 hexclusive⟩

/-- The view that is presented is the frontier, so that keeping it revokes no less: the views down
to the frontier are requested, and the others are revoked. -/
theorem settle_requests {within : Bool} {done rest : List ι} (hnodup : hub.order.Nodup)
    (horder : hub.order = done ++ view :: rest)
    (hpresented : ∀ first presented, hub.frontier = some first →
      hub.presentedView = some presented → presented = first)
    (hwithin : within = true ↔ ∀ other ∈ done, hub.frontier ≠ some other) :
    (within || decide (hub.presentedView = some view)) = true ↔
      view ∈ downTo hub.stands hub.order := by
  have hsplit : (done ++ view :: rest).Nodup := horder ▸ hnodup
  have hdown : within = true ↔ view ∈ downTo hub.stands hub.order := by
    rw [hwithin, horder, mem_downTo_iff hsplit, ← find?_ne_iff (view :: rest), ← horder]
    rfl
  rw [Bool.or_eq_true, decide_eq_true_iff, hdown]
  refine or_iff_left_of_imp fun hkeep => hdown.1 (hwithin.2 fun other hother hsame => ?_)
  obtain rfl : view = other := hpresented other view hsame hkeep
  exact (List.nodup_append.1 hsplit).2.2 view hother view List.mem_cons_self rfl

theorem passSound_settle {frontier : Option ι} {within : Bool} {rest : List ι}
    (hnodup : hub.order.Nodup) (hpass : hub.PassSound (some (.settle frontier within rest))) :
    (hub.stepPass (.settle frontier within rest)).PassSound
      (hub.stepPass (.settle frontier within rest)).pass := by
  obtain ⟨hactive, hfrontier, hpresented, done, horder, hdone, hwithin⟩ := hpass
  cases rest with
  | nil =>
      rw [List.append_nil] at horder
      refine ⟨hactive, hfrontier, fun view hview => ?_, ?_⟩
      · exact (hdone view (horder ▸ hview)).trans (and_iff_right hactive).symm
      · exact hpresented.trans (if_pos hactive).symm
  | cons view rest =>
      have hkept := settle_requests hnodup horder (by
        intro first presented hfirst hshown
        rw [hpresented, hfirst, Option.filter_eq_some_iff] at hshown
        exact (Option.some_inj.1 hshown.1).symm) hwithin
      rw [OverlayHub.stepPass]
      refine ⟨hactive, ?_, ?_, done ++ [view], horder.trans (List.append_cons done view rest), ?_,
        ?_⟩
      · rw [frontier_request]
        exact hfrontier
      · rw [confirmed_request, frontier_request]
        exact hpresented
      · intro other hother
        rw [wanted_request, stands_request]
        split_ifs with hsame
        · rw [hsame]
          exact hkept
        · refine hdone other ((List.mem_append.1 hother).resolve_right fun hlast => ?_)
          exact hsame (List.mem_singleton.1 hlast)
      · rw [frontier_request, Bool.and_eq_true, decide_eq_true_iff, hfrontier, hwithin,
          List.forall_mem_append, List.forall_mem_singleton]
        rfl

theorem passSound_authorize {frontier : Option ι}
    (hpass : hub.PassSound (some (.authorize frontier))) :
    (hub.stepPass (.authorize frontier)).PassSound (hub.stepPass (.authorize frontier)).pass := by
  obtain ⟨-, hfrontier, hsettled⟩ := hpass
  rw [OverlayHub.stepPass]
  split
  · rename_i view hactivating
    obtain ⟨hview, -⟩ := Option.filter_eq_some_iff.1 hactivating
    have hwanted : ∀ other, ({ hub with pass := some .finish }.ask view
        authorizePresentationActivation).wanted other = hub.wanted other := by
      intro other
      rw [wanted_ask]
      split_ifs with hsame
      · rw [hsame]
        exact wanted_post
      · rfl
    refine ⟨⟨fun other hother => ?_, ?_⟩, fun _ other hother hstate => ?_⟩
    · rw [hwanted, stands_ask rfl]
      exact hsettled.wanted other hother
    · rw [frontier_ask rfl, confirmed_ask rfl]
      exact hsettled.presented
    · rw [frontier_ask rfl] at hother
      obtain rfl : view = other := Option.some_inj.1 (hview.symm.trans (hfrontier.trans hother))
      refine Or.inl ?_
      simp only [ask, Function.update_self]
      exact List.mem_append_right _ (List.mem_singleton.2 rfl)
  · rename_i hactivating
    refine ⟨hsettled.of_alike (alike_withPass hub _), fun _ view hview hstate => ?_⟩
    have hview : hub.frontier = some view := hview
    have hstate : hub.displayState view = .activating := hstate
    rw [hfrontier, hview, Option.filter_some, if_pos (beq_iff_eq.2 hstate)] at hactivating
    cases hactivating

/-- Each step of a pass keeps what the pass has established. -/
theorem passSound_stepPass {pass : ReconcilePass ι} (hnodup : hub.order.Nodup)
    (hpass : hub.PassSound (some pass)) (hpending : hub.reconcilePending = false) :
    (hub.stepPass pass).PassSound (hub.stepPass pass).pass := by
  cases pass with
  | revoke rest => exact passSound_revoke hpass
  | scan stable rest => exact passSound_scan hpass
  | look stable view rest => exact passSound_look hpass
  | settle frontier within rest => exact passSound_settle hnodup hpass
  | authorize frontier => exact passSound_authorize hpass
  | finish =>
      rw [OverlayHub.stepPass, if_neg (Bool.eq_false_iff.1 hpending)]
      exact ⟨hpass.1.of_alike (alike_withPass hub _), hpass.2⟩

/-! ## Runs -/

/-- Who is in which call: all other views are idle. -/
structure Controlled (endpoint : ι → OverlayHubEndpoint) (hub : OverlayHub ι) : Prop where
  nodup : hub.order.Nodup
  views : ∀ view, (hub.views view).Sound (endpoint view)
  idle : ∀ view, hub.asked ≠ some view → hub.handling ≠ some view → (hub.views view).Idle
  asked : hub.asked.isSome = true → hub.pass.isSome = true
  pending : hub.pass = none → hub.reconcilePending = false

/-- What holds of a hub and its views between any two steps. -/
structure Sound (endpoint : ι → OverlayHubEndpoint) (hub : OverlayHub ι) : Prop extends
    Controlled endpoint hub where
  pass : hub.reconcilePending = false → hub.PassSound hub.pass

omit [DecidableEq ι] in
theorem Controlled.withPass (hcontrolled : hub.Controlled endpoint) (presented : Option ι)
    (next : ReconcilePass ι) :
    Controlled endpoint { hub with presentedView := presented, pass := some next } :=
  ⟨hcontrolled.nodup, hcontrolled.views, hcontrolled.idle, fun _ => rfl, by rintro ⟨⟩⟩

/-- What a pass asks of a view waits there, or the view handles it at once. -/
theorem Controlled.ask {asking : ProcessingView → ProcessingView}
    (hcontrolled : hub.Controlled endpoint) (hasked : hub.asked = none)
    (hsome : hub.pass.isSome = true) (hview : (asking (hub.views view)).Sound (endpoint view)) :
    (hub.ask view asking).Controlled endpoint where
  nodup := hcontrolled.nodup
  views other := by
    simp only [OverlayHub.ask]
    by_cases hother : other = view
    · rw [hother, Function.update_self]
      exact hview
    · rw [Function.update_of_ne hother]
      exact hcontrolled.views other
  idle other hasked' hhandling := by
    have hother : other ≠ view := by
      rintro rfl
      exact hasked' (if_neg hhandling)
    simp only [OverlayHub.ask, Function.update_of_ne hother]
    exact hcontrolled.idle other (by rw [hasked]; rintro ⟨⟩) hhandling
  asked := fun _ => hsome
  pending := hcontrolled.pending

theorem Controlled.request (hcontrolled : hub.Controlled endpoint) (hasked : hub.asked = none)
    (hsome : hub.pass.isSome = true) (requested : Bool) :
    (hub.request view requested).Controlled endpoint :=
  hcontrolled.ask hasked hsome
    ((hcontrolled.views view).step (.setPresentationRequested requested))

theorem Controlled.beginPass (hcontrolled : hub.Controlled endpoint) :
    hub.beginPass.Controlled endpoint :=
  ⟨hcontrolled.nodup, hcontrolled.views, hcontrolled.idle, fun _ => rfl, by rintro ⟨⟩⟩

theorem Controlled.stepPass {pass : ReconcilePass ι} (hcontrolled : hub.Controlled endpoint)
    (hasked : hub.asked = none) : (hub.stepPass pass).Controlled endpoint := by
  have hpassed := hcontrolled.withPass hub.presentedView
  cases pass with
  | revoke rest =>
      cases rest with
      | nil => exact hcontrolled.withPass none .finish
      | cons view rest => exact (hpassed _).request hasked rfl false
  | scan stable rest =>
      cases rest with
      | nil => exact hcontrolled.withPass stable _
      | cons view rest => exact (hpassed _).request hasked rfl true
  | look stable view rest =>
      rw [OverlayHub.stepPass]
      split_ifs
      · exact hcontrolled.withPass (some view) _
      · exact hcontrolled.withPass none _
      · exact hpassed _
  | settle frontier within rest =>
      cases rest with
      | nil => exact hpassed _
      | cons view rest => exact (hpassed _).request hasked rfl _
  | authorize frontier =>
      rw [OverlayHub.stepPass]
      split
      · rename_i view _
        exact (hpassed .finish).ask hasked rfl
          ((hcontrolled.views view).step .authorizePresentationActivation)
      · exact hpassed .finish
  | finish =>
      rw [OverlayHub.stepPass]
      split_ifs with hpending
      · exact hcontrolled.beginPass
      · refine ⟨hcontrolled.nodup, hcontrolled.views, hcontrolled.idle, fun hsome => ?_,
          fun _ => Bool.eq_false_iff.2 hpending⟩
        rw [show ({ hub with pass := none } : OverlayHub ι).asked = none from hasked] at hsome
        cases hsome

theorem reconcilePending_stepPass {pass : ReconcilePass ι} (hother : pass ≠ .finish) :
    (hub.stepPass pass).reconcilePending = hub.reconcilePending := by
  cases pass with
  | revoke rest => cases rest <;> rfl
  | scan stable rest => cases rest <;> rfl
  | look stable view rest =>
      rw [OverlayHub.stepPass]
      split_ifs <;> rfl
  | settle frontier within rest => cases rest <;> rfl
  | authorize frontier =>
      rw [OverlayHub.stepPass]
      split <;> rfl
  | finish => exact absurd rfl hother

/-- A pass that ends behind a change is followed by another. -/
theorem Sound.stepPass {pass : ReconcilePass ι} (hsound : hub.Sound endpoint)
    (hasked : hub.asked = none) (hpass : hub.pass = some pass) :
    (hub.stepPass pass).Sound endpoint where
  toControlled := hsound.toControlled.stepPass hasked
  pass := by
    intro hpending
    by_cases hbefore : hub.reconcilePending = false
    · exact passSound_stepPass hsound.nodup (hpass ▸ hsound.pass hbefore) hbefore
    · by_cases hfinish : pass = .finish
      · rw [hfinish, OverlayHub.stepPass, if_pos (Bool.not_eq_false _ ▸ hbefore)]
        exact passSound_beginPass hub
      · rw [reconcilePending_stepPass hfinish] at hpending
        exact absurd hpending hbefore

theorem Sound.reconcilePresentation (hcontrolled : hub.Controlled endpoint) :
    hub.reconcilePresentation.Sound endpoint := by
  rw [OverlayHub.reconcilePresentation]
  split_ifs with hsome
  · refine ⟨⟨hcontrolled.nodup, hcontrolled.views, hcontrolled.idle, fun _ => hsome, ?_⟩, ?_⟩
    · intro hnone
      rw [show hub.pass = none from hnone] at hsome
      cases hsome
    · rintro ⟨⟩
  · exact ⟨hcontrolled.beginPass, fun _ => passSound_beginPass hub⟩

/-- The view that goes on is the one in the innermost call. -/
theorem Controlled.update {working : ProcessingView} (hcontrolled : hub.Controlled endpoint)
    (hbusy : hub.asked = some view ∨ hub.handling = some view)
    (hview : working.Sound (endpoint view)) :
    Controlled endpoint { hub with views := Function.update hub.views view working } where
  nodup := hcontrolled.nodup
  views other := by
    by_cases hother : other = view
    · simp only [hother, Function.update_self]
      exact hview
    · simp only [Function.update_of_ne hother]
      exact hcontrolled.views other
  idle other hasked hhandling := by
    have hother : other ≠ view := by
      rintro rfl
      exact hbusy.elim hasked hhandling
    simp only [Function.update_of_ne hother]
    exact hcontrolled.idle other hasked hhandling
  asked := hcontrolled.asked
  pending := hcontrolled.pending

/-- A view that goes on without a change of its state changes nothing for the hub. -/
theorem alike_update {working : ProcessingView} {handling : Option ι}
    (hstate : working.displayState = hub.displayState view)
    (hwanted : working.wanted = hub.wanted view)
    (hauthorized : hub.displayState view = .activating → (hub.views view).Authorized →
      working.Authorized) :
    Alike hub { hub with
      views := Function.update hub.views view working
      handling := handling } where
  order := rfl
  active := rfl
  presentedView := rfl
  displayState other := by
    by_cases hother : other = view
    · simp only [displayState, hother, Function.update_self]
      exact hstate
    · simp only [displayState, Function.update_of_ne hother]
  wanted other := by
    by_cases hother : other = view
    · simp only [wanted, hother, Function.update_self]
      exact hwanted
    · simp only [wanted, Function.update_of_ne hother]
  authorized other := by
    by_cases hother : other = view
    · simp only [hother, Function.update_self]
      exact hauthorized
    · simp only [Function.update_of_ne hother]
      exact fun _ => id

theorem Sound.workView (hsound : hub.Sound endpoint)
    (hbusy : hub.asked = some view ∨ hub.handling = some view) (answer : Answer) :
    (hub.workView endpoint view answer).Sound endpoint := by
  have hcontrolled := hsound.toControlled.update hbusy ((hsound.views view).work answer)
  rw [OverlayHub.workView]
  split_ifs with hchanged
  · exact Sound.reconcilePresentation hcontrolled
  · have hstate := not_not.1 hchanged
    refine ⟨hcontrolled, fun hpending =>
      (hsound.pass hpending).of_alike (alike_update hstate ?_ ?_)⟩
    · exact wanted_work (hsound.views view) answer
    · intro hactivating hauthorized
      exact hauthorized.work (hsound.views view) hactivating (hstate.trans hactivating)

theorem Sound.proceed (hsound : hub.Sound endpoint) (answer : Answer) :
    (hub.proceed endpoint answer).Sound endpoint := by
  rw [OverlayHub.proceed]
  split
  · rename_i view hasked
    split_ifs with hidle
    · have halike : Alike hub { hub with asked := none } :=
        ⟨rfl, rfl, rfl, fun _ => rfl, fun _ => rfl, fun _ _ => id⟩
      refine ⟨⟨hsound.nodup, hsound.views, fun other _ hhandling => ?_, by rintro ⟨⟩,
        hsound.pending⟩, fun hpending => (hsound.pass hpending).of_alike halike⟩
      by_cases hother : other = view
      · rw [hother]
        exact hidle
      · refine hsound.idle other (fun hsame => hother ?_) hhandling
        exact (Option.some_inj.1 (hasked.symm.trans hsame)).symm
    · exact hsound.workView (Or.inl hasked) answer
  · rename_i hasked
    split
    · rename_i pass hpass
      exact hsound.stepPass hasked hpass
    · rename_i hpass
      split
      · rename_i view hhandling
        split_ifs with hidle
        · have halike : Alike hub { hub with handling := none } :=
            ⟨rfl, rfl, rfl, fun _ => rfl, fun _ => rfl, fun _ _ => id⟩
          refine ⟨⟨hsound.nodup, hsound.views, fun other hother _ => ?_, hsound.asked,
            hsound.pending⟩, fun hpending => (hsound.pass hpending).of_alike halike⟩
          by_cases hsame : other = view
          · rw [hsame]
            exact hidle
          · refine hsound.idle other hother fun hcontra => hsame ?_
            exact (Option.some_inj.1 (hhandling.symm.trans hcontra)).symm
        · exact hsound.workView (Or.inr hhandling) answer
      · exact hsound

/-- What arrives at a view changes neither its state nor what it is wanted for. -/
theorem Sound.handle {arriving : ProcessingView → ProcessingView} (hsound : hub.Sound endpoint)
    (hrest : hub.AtRest) (hview : (arriving (hub.views view)).Sound (endpoint view))
    (hstate : (arriving (hub.views view)).displayState = hub.displayState view)
    (hwanted : (arriving (hub.views view)).wanted = hub.wanted view)
    (hauthorized : (hub.views view).Authorized → (arriving (hub.views view)).Authorized) :
    (hub.handle view arriving).Sound endpoint := by
  obtain ⟨hasked, hpass, hhandling⟩ := hrest
  rw [OverlayHub.handle]
  split_ifs
  · have hcontrolled : Controlled endpoint { hub with handling := some view } := by
      refine ⟨hsound.nodup, hsound.views, fun other _ _ => ?_, hsound.asked, hsound.pending⟩
      exact hsound.idle other (by rw [hasked]; rintro ⟨⟩) (by rw [hhandling]; rintro ⟨⟩)
    exact ⟨hcontrolled.update (Or.inr rfl) hview, fun hpending =>
      (hsound.pass hpending).of_alike (alike_update hstate hwanted fun _ => hauthorized)⟩
  · exact hsound

theorem Controlled.registerView (hcontrolled : hub.Controlled endpoint) (hnew : view ∉ hub.order) :
    Controlled endpoint { hub with
      order := sortViewsByPriority endpoint (hub.order ++ [view])
      views := Function.update hub.views view {} } where
  nodup := by
    refine (List.perm_insertionSort _ _).nodup_iff.2 ?_
    exact List.nodup_append.2 ⟨hcontrolled.nodup, List.nodup_singleton view, fun other hother last
      hlast hsame => hnew (List.mem_singleton.1 hlast ▸ hsame ▸ hother)⟩
  views other := by
    by_cases hother : other = view
    · simp only [hother, Function.update_self]
      exact sound_initial
    · simp only [Function.update_of_ne hother]
      exact hcontrolled.views other
  idle other hasked hhandling := by
    by_cases hother : other = view
    · simp only [hother, Function.update_self]
      exact ⟨rfl, rfl⟩
    · simp only [Function.update_of_ne hother]
      exact hcontrolled.idle other hasked hhandling
  asked := hcontrolled.asked
  pending := hcontrolled.pending

theorem Sound.step (hsound : hub.Sound endpoint) (move : Move ι) :
    (hub.step endpoint move).Sound endpoint := by
  have hcontrolled := hsound.toControlled
  cases move with
  | proceed answer => exact hsound.proceed answer
  | registerView view =>
      rw [OverlayHub.step, OverlayHub.registerView]
      split_ifs with hrest hknown
      · exact hsound
      · exact Sound.reconcilePresentation
          (hcontrolled.registerView fun hmem => hknown (Or.inl hmem))
      · exact hsound
  | applyUsageState available =>
      rw [OverlayHub.step]
      split_ifs
      · exact Sound.reconcilePresentation ⟨hcontrolled.nodup, hcontrolled.views, hcontrolled.idle,
          hcontrolled.asked, hcontrolled.pending⟩
      · exact hsound
  | setRequestedVisible visible =>
      rw [OverlayHub.step]
      split_ifs
      · exact Sound.reconcilePresentation ⟨hcontrolled.nodup, hcontrolled.views, hcontrolled.idle,
          hcontrolled.asked, hcontrolled.pending⟩
      · exact hsound
  | hideTemporarily =>
      rw [OverlayHub.step]
      split_ifs
      · exact Sound.reconcilePresentation ⟨hcontrolled.nodup, hcontrolled.views, hcontrolled.idle,
          hcontrolled.asked, hcontrolled.pending⟩
      · exact hsound
  | restoreAfterTemporaryHide =>
      rw [OverlayHub.step]
      split_ifs
      · exact Sound.reconcilePresentation ⟨hcontrolled.nodup, hcontrolled.views, hcontrolled.idle,
          hcontrolled.asked, hcontrolled.pending⟩
      · exact hsound
  | notify view notification =>
      rw [OverlayHub.step]
      split_ifs with hrest
      · exact hsound.handle hrest ((hsound.views view).step (.notify notification)) rfl
          (wanted_of_own notification.isOwn) fun hauthorized => hauthorized.post _
      · exact hsound
  | timeout view timer =>
      rw [OverlayHub.step]
      split_ifs with hrest
      · exact hsound.handle hrest ((hsound.views view).step (.timeout timer))
          (displayState_timeout timer) (wanted_timeout timer) fun hauthorized =>
          hauthorized.timeout timer
      · exact hsound

omit [DecidableEq ι] in
theorem sound_initial : Sound endpoint ({} : OverlayHub ι) where
  nodup := List.nodup_nil
  views := fun _ => ProcessingView.sound_initial
  idle := fun _ _ _ => ⟨rfl, rfl⟩
  asked := by rintro ⟨⟩
  pending := fun _ => rfl
  pass := fun _ => ⟨⟨by rintro view ⟨⟩, rfl⟩, by rintro ⟨⟩⟩

theorem sound_run (moves : List (Move ι)) :
    Sound endpoint (moves.foldl (OverlayHub.step endpoint) {}) :=
  List.foldlRecOn moves _ sound_initial fun _ hsound move _ => hsound.step move

/-! ## At rest -/

omit [DecidableEq ι] in
theorem Sound.idle_of_atRest (hsound : hub.Sound endpoint) (hrest : hub.AtRest) (view : ι) :
    (hub.views view).Idle :=
  hsound.idle view (by rw [hrest.1]; rintro ⟨⟩) (by rw [hrest.2.2]; rintro ⟨⟩)

omit [DecidableEq ι] in
theorem Sound.settled_of_atRest (hsound : hub.Sound endpoint) (hrest : hub.AtRest) :
    hub.Settled ∧ (hub.active = true → hub.FrontierAuthorized) := by
  have hpass := hsound.pass (hsound.pending hrest.2.1)
  rw [hrest.2.1] at hpass
  exact hpass

omit [DecidableEq ι] in
/-- A view that stands is requested. -/
theorem requested_of_stands (hview : (hub.views view).Sound (endpoint view))
    (hstands : hub.stands view = true) : (hub.views view).view.requested = true := by
  by_contra hrequested
  have hfollows := hview.follows
  rw [Follows, if_neg hrequested] at hfollows
  rw [stands, confirmed, exclusive, displayState] at hstands
  generalize (hub.views view).displayState = state at hfollows hstands
  revert hfollows hstands
  cases state <;> decide

omit [DecidableEq ι] in
theorem Sound.frontier_of_stands (hsound : hub.Sound endpoint) (hrest : hub.AtRest)
    (hview : view ∈ hub.order) (hstands : hub.stands view = true) :
    hub.active = true ∧ hub.frontier = some view := by
  have hwanted : hub.wanted view = true :=
    (hsound.idle_of_atRest hrest view).wanted.trans
      (requested_of_stands (hsound.views view) hstands)
  obtain ⟨hactive, hdown⟩ := ((hsound.settled_of_atRest hrest).1.wanted view hview).1 hwanted
  exact ⟨hactive, eq_of_mem_downTo hdown hstands⟩

/-- Whenever the hub and its views have returned, exactly the views down to the first one that is
confirmed or exclusive are requested, and none at all if the hub is disabled or hidden.  No view
is left activating, and the hub is presented if and only if that first view is confirmed. -/
theorem reconciled_at_rest (endpoint : ι → OverlayHubEndpoint) (moves : List (Move ι)) :
    let hub := moves.foldl (OverlayHub.step endpoint) {}
    hub.AtRest →
      (∀ view ∈ hub.order, ((hub.views view).view.requested = true ↔
        hub.active = true ∧ view ∈ downTo hub.stands hub.order)) ∧
      (∀ view ∈ hub.order, hub.displayState view ≠ .activating) ∧
      (hub.presented = true ↔
        hub.active = true ∧ ∃ view, hub.frontier = some view ∧ hub.confirmed view = true) := by
  intro hub hrest
  have hsound : hub.Sound endpoint := sound_run moves
  obtain ⟨hsettled, hauthorized⟩ := hsound.settled_of_atRest hrest
  refine ⟨fun view hview => ?_, fun view hview hactivating => ?_, ?_⟩
  · rw [← (hsound.idle_of_atRest hrest view).wanted]
    exact hsettled.wanted view hview
  · have hstands : hub.stands view = true := by
      rw [stands, confirmed, exclusive, hactivating]
      rfl
    obtain ⟨hactive, hfrontier⟩ := hsound.frontier_of_stands hrest hview hstands
    exact (hsound.idle_of_atRest hrest view).not_authorized
      (hauthorized hactive view hfrontier hactivating)
  · rw [presented, hsettled.presented]
    constructor
    · intro hpresented
      rw [Bool.and_eq_true] at hpresented
      split_ifs at hpresented with hactive
      · refine ⟨hactive, ?_⟩
        obtain ⟨view, hview, hconfirmed⟩ := Option.any_eq_true _ _ |>.1 hpresented.2
        exact ⟨view, (Option.filter_eq_some_iff.1 hview).1, hconfirmed⟩
      · exact absurd hpresented.2 (by simp)
    · rintro ⟨hactive, view, hfrontier, hconfirmed⟩
      rw [if_pos hactive, hfrontier, Option.filter_some_pos hconfirmed, Option.any_some,
        hconfirmed, Bool.and_true]
      rw [active, enabled, Bool.and_eq_true, Bool.and_eq_true, Bool.and_eq_true] at hactive
      rw [hactive.1.1.1, hactive.2, Bool.and_true]

/-- A floating view and a taskbar view in front of it are registered.  As soon as the usage is
available both are asked for; the taskbar is not there yet, and the floating view presents. -/
def presentingRun : List (Move Bool) :=
  .registerView false :: List.replicate 5 (.proceed {}) ++
    .registerView true :: List.replicate 8 (.proceed {}) ++
    .applyUsageState true :: List.replicate 8 (.proceed { attach := .temporarilyUnavailable }) ++
    List.replicate 10 (.proceed { attach := .prepared }) ++
    List.replicate 26 (.proceed { attach := .attached, verification := .confirmed })

def floatingBehindTaskbar : Bool → OverlayHubEndpoint
  | true => { priority := 100 }
  | false => { priority := 0 }

/-- The run ends at rest: both views are requested, and the hub is presented by the second. -/
theorem presented_at_end_of_presentingRun :
    let hub := presentingRun.foldl (OverlayHub.step floatingBehindTaskbar) {}
    (hub.views true).view.requested = true ∧ (hub.views false).view.requested = true ∧
      hub.presented = true := by
  obtain ⟨hrequested, -, hpresented⟩ :=
    reconciled_at_rest floatingBehindTaskbar presentingRun (by decide +kernel)
  refine ⟨(hrequested true ?_).2 ?_, (hrequested false ?_).2 ?_, hpresented.2 ?_⟩
  · decide +kernel
  · decide +kernel
  · decide +kernel
  · decide +kernel
  · exact ⟨by decide +kernel, false, by decide +kernel, by decide +kernel⟩

/-- Whenever the hub and its views have returned, one view at most is confirmed or exclusive. -/
theorem one_view_stands_at_rest (endpoint : ι → OverlayHubEndpoint) (moves : List (Move ι)) :
    let hub := moves.foldl (OverlayHub.step endpoint) {}
    hub.AtRest → (hub.order.filter hub.stands).length ≤ 1 := by
  intro hub hrest
  have hsound : hub.Sound endpoint := sound_run moves
  have hfrontier : ∀ view ∈ hub.order.filter hub.stands, hub.frontier = some view := by
    intro view hview
    obtain ⟨hmem, hstands⟩ := List.mem_filter.1 hview
    exact (hsound.frontier_of_stands hrest hmem hstands).2
  have hnodup : (hub.order.filter hub.stands).Nodup := hsound.nodup.filter _
  generalize hub.order.filter hub.stands = standing at hfrontier hnodup
  rcases standing with - | ⟨first, - | ⟨second, rest⟩⟩
  · exact Nat.zero_le 1
  · exact Nat.le_refl 1
  · have hsame := (hfrontier first List.mem_cons_self).symm.trans
      (hfrontier second (List.mem_cons_of_mem _ List.mem_cons_self))
    rw [Option.some_inj.1 hsame] at hnodup
    exact absurd List.mem_cons_self (List.nodup_cons.1 hnodup).1

/-- Of the two views that are requested at the end only one stands. -/
theorem one_view_stands_at_end_of_presentingRun :
    let hub := presentingRun.foldl (OverlayHub.step floatingBehindTaskbar) {}
    hub.order.length = 2 ∧ (hub.order.filter hub.stands).length ≤ 1 :=
  ⟨by decide +kernel,
    one_view_stands_at_rest floatingBehindTaskbar presentingRun (by decide +kernel)⟩

end OverlayHub

end UwfManager
