import Mathlib.Data.List.Sort
import Mathlib.Logic.Function.Basic
import UwfManager.Overlay.OverlayHubView

/-!
# The overlay hub

The hub asks its views, from the highest priority down, to present the overlay.  What it asks of a
view may change the display state of the view, and what a view does by itself may ask the hub to
reconcile again, so the hub is modelled with the calls that it is in.
-/

namespace UwfManager

open OverlayHubView

/-- Where `reconcilePresentationOnce` stands, each time with the views that are left. -/
inductive ReconcilePass (ι : Type*) where
  | revoke (rest : List ι)
  | scan (stable : Option ι) (rest : List ι)
  | look (stable : Option ι) (view : ι) (rest : List ι)
  | settle (frontier : Option ι) (within : Bool) (rest : List ι)
  | authorize (frontier : Option ι)
  | finish

/-- The hub reconciles as long as there is a pass.  A pass may run within the event of a view that
is being handled, and the view that a pass asks handles this before the pass goes on. -/
structure OverlayHub (ι : Type*) where
  views : ι → ProcessingView := fun _ => {}
  order : List ι := []
  available : Bool := false
  requestedVisible : Bool := true
  temporarilyHidden : Bool := false
  presentedView : Option ι := none
  reconcilePending : Bool := false
  pass : Option (ReconcilePass ι) := none
  handling : Option ι := none
  asked : Option ι := none

namespace OverlayHub

variable {ι : Type*} [DecidableEq ι]

def enabled (hub : OverlayHub ι) : Bool :=
  hub.available && hub.requestedVisible && !hub.order.isEmpty

/-- The views are wanted at all. -/
def active (hub : OverlayHub ι) : Bool := hub.enabled && !hub.temporarilyHidden

def displayState (hub : OverlayHub ι) (view : ι) : DisplayState := (hub.views view).displayState

def confirmed (hub : OverlayHub ι) (view : ι) : Bool :=
  presentationConfirmed (hub.displayState view)

def exclusive (hub : OverlayHub ι) (view : ι) : Bool :=
  presentationExclusive (hub.displayState view)

def presented (hub : OverlayHub ι) : Bool :=
  hub.available && !hub.temporarilyHidden && hub.presentedView.any hub.confirmed

/-! ## Reconciliation -/

def beginPass (hub : OverlayHub ι) : OverlayHub ι :=
  { hub with
    reconcilePending := false
    pass := some (if hub.active then
        .scan (hub.presentedView.filter fun view => decide (view ∈ hub.order) && hub.confirmed view)
          hub.order
      else .revoke hub.order) }

def reconcilePresentation (hub : OverlayHub ι) : OverlayHub ι :=
  if hub.pass.isSome then { hub with reconcilePending := true } else hub.beginPass

/-- A view that is handling an event only queues what it is asked for. -/
def ask (hub : OverlayHub ι) (view : ι) (asking : ProcessingView → ProcessingView) : OverlayHub ι :=
  { hub with
    views := Function.update hub.views view (asking (hub.views view))
    asked := if hub.handling = some view then none else some view }

def request (hub : OverlayHub ι) (view : ι) (requested : Bool) : OverlayHub ι :=
  hub.ask view fun processing => processing.setPresentationRequested requested

/-- One step of `reconcilePresentationOnce`, and of the loop around it. -/
def stepPass (hub : OverlayHub ι) : ReconcilePass ι → OverlayHub ι
  | .revoke [] => { hub with presentedView := none, pass := some .finish }
  | .revoke (view :: rest) => { hub with pass := some (.revoke rest) }.request view false
  | .scan stable [] =>
      { hub with presentedView := stable, pass := some (.settle none true hub.order) }
  | .scan stable (view :: rest) =>
      { hub with pass := some (.look stable view rest) }.request view true
  | .look stable view rest =>
      if hub.confirmed view then
        { hub with presentedView := some view, pass := some (.settle (some view) true hub.order) }
      else if hub.exclusive view then
        { hub with presentedView := none, pass := some (.settle (some view) true hub.order) }
      else { hub with pass := some (.scan stable rest) }
  | .settle frontier _ [] => { hub with pass := some (.authorize frontier) }
  | .settle frontier within (view :: rest) =>
      { hub with
        pass := some (.settle frontier (within && decide (frontier ≠ some view)) rest) }.request
        view (within || decide (hub.presentedView = some view))
  | .authorize frontier =>
      match frontier.filter fun view => hub.displayState view == .activating with
      | some view =>
          { hub with pass := some .finish }.ask view
            ProcessingView.authorizePresentationActivation
      | none => { hub with pass := some .finish }
  | .finish => if hub.reconcilePending then hub.beginPass else { hub with pass := none }

variable (endpoint : ι → OverlayHubEndpoint)

/-- A view goes on, and tells the hub of a changed display state. -/
def workView (hub : OverlayHub ι) (view : ι) (answer : Answer) : OverlayHub ι :=
  let worked := (hub.views view).work (endpoint view) answer
  let after := { hub with views := Function.update hub.views view worked }
  if worked.displayState ≠ hub.displayState view then after.reconcilePresentation else after

/-- The innermost call goes on: a view that is asked, the pass that asked it, or the view within
whose event the pass runs. -/
def proceed (hub : OverlayHub ι) (answer : Answer) : OverlayHub ι :=
  match hub.asked with
  | some view =>
      if (hub.views view).Idle then { hub with asked := none }
      else hub.workView endpoint view answer
  | none =>
      match hub.pass with
      | some pass => hub.stepPass pass
      | none =>
          match hub.handling with
          | some view =>
              if (hub.views view).Idle then { hub with handling := none }
              else hub.workView endpoint view answer
          | none => hub

/-! ## The hub as its callers see it -/

def AtRest (hub : OverlayHub ι) : Prop :=
  hub.asked = none ∧ hub.pass = none ∧ hub.handling = none

instance (hub : OverlayHub ι) : Decidable hub.AtRest :=
  decidable_of_iff (hub.asked = none ∧ hub.pass.isNone = true ∧ hub.handling = none) (by
    rw [AtRest, Option.isNone_iff_eq_none])

def sortViewsByPriority (order : List ι) : List ι :=
  order.insertionSort fun lhs rhs => (endpoint rhs).priority ≤ (endpoint lhs).priority

/-- A view is withdrawn and disabled when it is registered. -/
def registerView (hub : OverlayHub ι) (view : ι) : OverlayHub ι :=
  if view ∈ hub.order ∨ (endpoint view).isCompatible = false then hub
  else { hub with
    order := sortViewsByPriority endpoint (hub.order ++ [view])
    views := Function.update hub.views view {} }.reconcilePresentation

def applyUsageState (hub : OverlayHub ι) (available : Bool) : OverlayHub ι :=
  { hub with available := available }.reconcilePresentation

def setRequestedVisible (hub : OverlayHub ι) (visible : Bool) : OverlayHub ι :=
  { hub with requestedVisible := visible, temporarilyHidden := false }.reconcilePresentation

def hideTemporarily (hub : OverlayHub ι) : OverlayHub ι :=
  { hub with temporarilyHidden := true }.reconcilePresentation

def restoreAfterTemporaryHide (hub : OverlayHub ι) : OverlayHub ι :=
  { hub with temporarilyHidden := false }.reconcilePresentation

/-- A view handles what it is notified of, or that one of its timers has run out. -/
def handle (hub : OverlayHub ι) (view : ι) (arriving : ProcessingView → ProcessingView) :
    OverlayHub ι :=
  if view ∈ hub.order then
    { hub with
      views := Function.update hub.views view (arriving (hub.views view))
      handling := some view }
  else hub

inductive Move (ι : Type*) where
  | registerView (view : ι)
  | applyUsageState (available : Bool)
  | setRequestedVisible (visible : Bool)
  | hideTemporarily
  | restoreAfterTemporaryHide
  | notify (view : ι) (notification : Notification)
  | timeout (view : ι) (timer : ProcessingView.Timer)
  | proceed (answer : Answer)

/-- What comes from outside comes when the hub and its views have returned. -/
def step (hub : OverlayHub ι) : Move ι → OverlayHub ι
  | .proceed answer => hub.proceed endpoint answer
  | .registerView view => if hub.AtRest then hub.registerView endpoint view else hub
  | .applyUsageState available => if hub.AtRest then hub.applyUsageState available else hub
  | .setRequestedVisible visible => if hub.AtRest then hub.setRequestedVisible visible else hub
  | .hideTemporarily => if hub.AtRest then hub.hideTemporarily else hub
  | .restoreAfterTemporaryHide => if hub.AtRest then hub.restoreAfterTemporaryHide else hub
  | .notify view notification =>
      if hub.AtRest then hub.handle view fun processing => processing.post notification.event
      else hub
  | .timeout view timer =>
      if hub.AtRest then hub.handle view fun processing => processing.timeout timer else hub

end OverlayHub

end UwfManager
