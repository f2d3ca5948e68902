import Mathlib.Data.Int.Notation
import Mathlib.Data.List.Basic
import Mathlib.Tactic.Common

/-!
# A view of the overlay hub

A view presents the overlay at one endpoint, such as the taskbar or a floating window.  Its
requests, its timers, the notifications of the endpoint and the results of what it asks of the
endpoint go through one queue, which is emptied event by event.
-/

namespace UwfManager

namespace OverlayHubView

inductive DisplayState where
  | disabled
  | withdrawn
  | unavailable
  | incompatible
  | probing
  | activating
  | attaching
  | refreshing
  | withdrawing
  | failing
  | blocked
  | blockedWithdrawn
  | recovering
  | confirmed
  deriving DecidableEq, Repr

inductive AttachResult where
  | prepared
  | attached
  | retained
  | temporarilyUnavailable
  | incompatible
  | releasePending
  | releaseBlocked
  | failed
  deriving DecidableEq, Repr

inductive VerificationResult where
  | confirmed
  | pending
  | retained
  | refreshRequired
  | invalid
  deriving DecidableEq, Repr

inductive ReleaseResult where
  | complete
  | pending
  deriving DecidableEq, Repr

inductive VerificationSource where
  | attach
  | confirmation
  | health
  | presentationChanged
  deriving DecidableEq, Repr

/-- An event carries the result that its type reads. -/
inductive Event where
  | requestEnabled
  | requestDisabled
  | externalRefresh
  | retryDue
  | confirmationDue
  | healthDue
  | presentationChanged
  | activationAuthorized
  | attachFinished (result : AttachResult)
  | activationFinished (result : AttachResult)
  | verificationObserved (result : VerificationResult) (source : VerificationSource)
  | releaseStarted (result : ReleaseResult)
  | releaseBlocked
  | releaseCompleted
  | hostReleaseStarted
  | hostReleaseCompleted
  deriving DecidableEq, Repr

inductive Action where
  | none
  | attachAcquire
  | attachRefresh
  | activate
  | verifyAttach
  | verifyConfirmation
  | verifyHealth
  | verifyChanged
  | suspend
  | releaseRecovery
  | releaseRequest
  | scheduleRecoverRetry
  deriving DecidableEq, Repr

structure Transition where
  nextState : DisplayState
  action : Action := .none
  actionBeforeStateChange : Bool := false
  deriving DecidableEq, Repr

def presentationConfirmed (state : DisplayState) : Bool := state == .confirmed

def presentationExclusive (state : DisplayState) : Bool :=
  state == .activating || state == .attaching || state == .refreshing || state == .recovering

/-! ## Transitions -/

def ignoreEvent (state : DisplayState) : Transition := { nextState := state }

def probePresentation : Transition := { nextState := .probing, action := .attachAcquire }

def refreshPresentation : Transition := { nextState := .refreshing, action := .attachRefresh }

/-- The endpoint is released before the next state is entered. -/
def failPresentation : Transition :=
  { nextState := .failing, action := .releaseRecovery, actionBeforeStateChange := true }

def suspendInto (state : DisplayState) : Transition :=
  { nextState := state, action := .suspend, actionBeforeStateChange := true }

def disablePresentation (state : DisplayState) : Transition :=
  if state = .disabled ∨ state = .withdrawn ∨ state = .withdrawing then { nextState := state }
  else { nextState := .withdrawing, action := .releaseRequest, actionBeforeStateChange := true }

def withdrawFailingPresentation : Transition := { nextState := .withdrawing }

def enableFromWithdrawn : Transition := { nextState := .recovering, action := .attachAcquire }

def enableDuringWithdraw : Transition := { nextState := .recovering }

def requestBlockedPresentation : Transition := { nextState := .blocked }

def withdrawBlockedPresentation : Transition := { nextState := .blockedWithdrawn }

def verifyConfirmation (state : DisplayState) : Transition :=
  { nextState := state, action := .verifyConfirmation }

def verifyHealth (state : DisplayState) : Transition :=
  { nextState := state, action := .verifyHealth }

def verifyChanged (state : DisplayState) : Transition :=
  { nextState := state, action := .verifyChanged }

def activatePrepared (state : DisplayState) : Transition :=
  { nextState := state, action := .activate }

def enterRecovering : Transition := { nextState := .recovering }

def recoverHost (state : DisplayState) : Transition :=
  { nextState := state, action := .attachAcquire }

def handleAttachFinished (state : DisplayState) : AttachResult → Transition
  | .prepared =>
      if state = .refreshing then { nextState := state, action := .activate }
      else { nextState := .activating }
  | .attached => failPresentation
  | .retained => if state = .refreshing then { nextState := .confirmed } else failPresentation
  | .temporarilyUnavailable =>
      if state = .recovering then { nextState := state, action := .scheduleRecoverRetry }
      else suspendInto .unavailable
  | .incompatible => suspendInto .incompatible
  | .releasePending => { nextState := .recovering }
  | .releaseBlocked => { nextState := .blocked }
  | .failed =>
      if state = .recovering then { nextState := state, action := .scheduleRecoverRetry }
      else failPresentation

def handleActivationFinished (state : DisplayState) : AttachResult → Transition
  | .attached =>
      if state = .refreshing then { nextState := state, action := .verifyAttach }
      else { nextState := .attaching, action := .verifyAttach }
  | .retained => if state = .refreshing then { nextState := .confirmed } else failPresentation
  | .temporarilyUnavailable => suspendInto .unavailable
  | .incompatible => suspendInto .incompatible
  | .releasePending => { nextState := .recovering }
  | .releaseBlocked => { nextState := .blocked }
  | .prepared => failPresentation
  | .failed => failPresentation

def handleVerificationObserved (state : DisplayState) (result : VerificationResult)
    (source : VerificationSource) : Transition :=
  if state = .attaching then
    if result = .confirmed then { nextState := .confirmed }
    else if result = .invalid then failPresentation
    else if result = .refreshRequired then refreshPresentation
    else if source = .confirmation ∧ (result = .pending ∨ result = .retained) then
      suspendInto .unavailable
    else { nextState := state }
  else if state = .refreshing then
    if result = .confirmed ∨ result = .retained then { nextState := .confirmed }
    else if result = .pending then { nextState := .attaching }
    else failPresentation
  else if result = .confirmed ∨ result = .retained then { nextState := state }
  else if result = .refreshRequired then refreshPresentation
  else failPresentation

def handleReleaseStarted (state : DisplayState) (result : ReleaseResult) : Transition :=
  if result = .complete then { nextState := .unavailable }
  else if state = .withdrawing ∨ state = .failing ∨ state = .blocked ∨
      state = .blockedWithdrawn then
    { nextState := state }
  else { nextState := .failing }

def handleReleaseBlocked (state : DisplayState) : Transition :=
  { nextState := if state = .withdrawing ∨ state = .blockedWithdrawn then .blockedWithdrawn
      else .blocked }

def handleReleaseCompleted (state : DisplayState) : Transition :=
  if state = .recovering then { nextState := state, action := .attachAcquire }
  else if state = .withdrawing ∨ state = .blockedWithdrawn then { nextState := .withdrawn }
  else if state = .failing ∨ state = .blocked then { nextState := .unavailable }
  else { nextState := state }

/-- The states that the table calls presenting. -/
def presentingStates : List DisplayState :=
  [.unavailable, .probing, .activating, .attaching, .refreshing, .withdrawing, .failing, .blocked,
    .blockedWithdrawn, .recovering, .confirmed]

/-- The transition table. -/
def reduce (state : DisplayState) : Event → Transition
  | .requestEnabled =>
      match state with
      | .disabled => probePresentation
      | .withdrawn => enableFromWithdrawn
      | .withdrawing => enableDuringWithdraw
      | .blockedWithdrawn => requestBlockedPresentation
      | _ => ignoreEvent state
  | .requestDisabled =>
      match state with
      | .failing => withdrawFailingPresentation
      | .blocked => withdrawBlockedPresentation
      | .blockedWithdrawn => ignoreEvent state
      | .withdrawn => disablePresentation state
      | _ => if state ∈ presentingStates then disablePresentation state else ignoreEvent state
  | .externalRefresh =>
      match state with
      | .unavailable => probePresentation
      | .attaching => refreshPresentation
      | .confirmed => refreshPresentation
      | _ => ignoreEvent state
  | .retryDue =>
      match state with
      | .unavailable => probePresentation
      | .recovering => recoverHost state
      | _ => ignoreEvent state
  | .confirmationDue =>
      if state = .attaching then verifyConfirmation state else ignoreEvent state
  | .healthDue =>
      if state = .confirmed then verifyHealth state else ignoreEvent state
  | .presentationChanged =>
      if state = .attaching ∨ state = .refreshing ∨ state = .confirmed then
        verifyChanged state
      else ignoreEvent state
  | .activationAuthorized =>
      if state = .activating then activatePrepared state else ignoreEvent state
  | .attachFinished result =>
      if state = .probing ∨ state = .refreshing ∨ state = .recovering then
        handleAttachFinished state result
      else ignoreEvent state
  | .activationFinished result =>
      if state = .activating ∨ state = .refreshing then handleActivationFinished state result
      else ignoreEvent state
  | .verificationObserved result source =>
      if state = .attaching ∨ state = .refreshing ∨ state = .confirmed then
        handleVerificationObserved state result source
      else ignoreEvent state
  | .releaseStarted result =>
      if state ∈ presentingStates then handleReleaseStarted state result else ignoreEvent state
  | .releaseBlocked =>
      if state ∈ presentingStates then handleReleaseBlocked state else ignoreEvent state
  | .releaseCompleted =>
      if state = .recovering ∨ state = .withdrawing ∨ state = .failing ∨ state = .blocked ∨
          state = .blockedWithdrawn then handleReleaseCompleted state
      else ignoreEvent state
  | .hostReleaseStarted =>
      if state = .unavailable ∨ state = .probing ∨ state = .activating ∨ state = .attaching ∨
          state = .refreshing ∨ state = .recovering ∨ state = .confirmed then
        enterRecovering
      else ignoreEvent state
  | .hostReleaseCompleted =>
      match state with
      | .recovering => recoverHost state
      | .withdrawing => handleReleaseCompleted state
      | .failing => handleReleaseCompleted state
      | .blocked => handleReleaseCompleted state
      | .blockedWithdrawn => handleReleaseCompleted state
      | .unavailable => probePresentation
      | .probing => probePresentation
      | .activating => probePresentation
      | .attaching => probePresentation
      | .refreshing => probePresentation
      | .confirmed => probePresentation
      | _ => ignoreEvent state

end OverlayHubView

open OverlayHubView

/-! ## The queue -/

/-- What the hub and the view ask of the class that implements the view. -/
structure OverlayHubEndpoint where
  isCompatible : Bool := true
  priority : ℤ
  healthCheckIntervalMs : ℤ := 0
  retryIntervalMs : ℕ → ℤ := fun _ => 1000
  maxExclusiveRecoverAttempts : ℕ := 3

namespace OverlayHubView

/-- What an endpoint reports of itself. -/
inductive Notification where
  | externalRefresh
  | presentationChanged
  | hostReleaseStarted
  | hostReleaseCompleted
  | releaseBlocked
  | releaseCompleted
  deriving DecidableEq, Repr

def Notification.event : Notification → Event
  | externalRefresh => .externalRefresh
  | presentationChanged => .presentationChanged
  | hostReleaseStarted => .hostReleaseStarted
  | hostReleaseCompleted => .hostReleaseCompleted
  | releaseBlocked => .releaseBlocked
  | releaseCompleted => .releaseCompleted

/-- What an endpoint answers to any call, and what it notifies before it returns. -/
structure Answer where
  attach : AttachResult := .failed
  verification : VerificationResult := .invalid
  release : ReleaseResult := .complete
  notifications : List Notification := []
  deriving DecidableEq, Repr

end OverlayHubView

structure OverlayHubView where
  events : List Event := []
  requested : Bool := false
  consecutiveFailures : ℕ := 0
  displayState : DisplayState := .disabled
  confirmationTimer : Bool := false
  retryTimer : Bool := false
  healthTimer : Bool := false

namespace OverlayHubView

def post (view : OverlayHubView) (event : Event) : OverlayHubView :=
  { view with events := view.events ++ [event] }

/-- The view is busy while its endpoint is asked, so what it is notified of waits. -/
def notify (view : OverlayHubView) (notifications : List Notification) : OverlayHubView :=
  { view with events := view.events ++ notifications.map Notification.event }

variable (endpoint : OverlayHubEndpoint)

def beginPresentationRelease (view : OverlayHubView) (answer : Answer) : OverlayHubView :=
  let view := (view.post (.releaseStarted .pending)).notify answer.notifications
  if answer.release = .complete then view.post .releaseCompleted else view

def observeVerification (view : OverlayHubView) (source : VerificationSource) (answer : Answer) :
    OverlayHubView :=
  (view.notify answer.notifications).post (.verificationObserved answer.verification source)

def scheduleRecoverRetry (view : OverlayHubView) (answer : Answer) : OverlayHubView :=
  let view := { view with consecutiveFailures := view.consecutiveFailures + 1 }
  if view.consecutiveFailures > endpoint.maxExclusiveRecoverAttempts then
    (view.post .releaseBlocked).beginPresentationRelease answer
  else if endpoint.retryIntervalMs view.consecutiveFailures > 0 then
    { view with retryTimer := true }
  else view.post .retryDue

/-- An action asks the endpoint once at most. -/
def execute (view : OverlayHubView) (answer : Answer) : Action → OverlayHubView
  | .none => view
  | .attachAcquire => (view.notify answer.notifications).post (.attachFinished answer.attach)
  | .attachRefresh => (view.notify answer.notifications).post (.attachFinished answer.attach)
  | .activate => (view.notify answer.notifications).post (.activationFinished answer.attach)
  | .verifyAttach => view.observeVerification .attach answer
  | .verifyConfirmation => view.observeVerification .confirmation answer
  | .verifyHealth => view.observeVerification .health answer
  | .verifyChanged => view.observeVerification .presentationChanged answer
  | .suspend => view.notify answer.notifications
  | .releaseRecovery => view.beginPresentationRelease answer
  | .releaseRequest => view.beginPresentationRelease answer
  | .scheduleRecoverRetry => view.scheduleRecoverRetry endpoint answer

def failuresOnEntering (state : DisplayState) (failures : ℕ) : ℕ :=
  if state = .disabled ∨ state = .withdrawn ∨ state = .confirmed ∨ state = .recovering then 0
  else if state = .unavailable then failures + 1
  else failures

/-- All timers are stopped, and the one of the new state is started. -/
def enterState (view : OverlayHubView) (state : DisplayState) : OverlayHubView :=
  let failures := failuresOnEntering state view.consecutiveFailures
  { view with
    displayState := state
    consecutiveFailures := failures
    confirmationTimer := state == .attaching
    retryTimer := state == .unavailable && decide (endpoint.retryIntervalMs failures > 0)
    healthTimer := state == .confirmed && decide (endpoint.healthCheckIntervalMs > 0) }

/-- The request that an event makes. -/
def Event.request? : Event → Option Bool
  | .requestEnabled => some true
  | .requestDisabled => some false
  | _ => Option.none

end OverlayHubView

/-- A view within `processEvents`, where the action of the last event may still be due. -/
structure ProcessingView where
  view : OverlayHubView := {}
  action : Action := .none

namespace ProcessingView

variable (endpoint : OverlayHubEndpoint)

def displayState (processing : ProcessingView) : DisplayState := processing.view.displayState

/-- Nothing is left to process. -/
def Idle (processing : ProcessingView) : Prop :=
  processing.view.events = [] ∧ processing.action = .none

instance (processing : ProcessingView) : Decidable processing.Idle :=
  inferInstanceAs (Decidable (_ ∧ _))

def post (processing : ProcessingView) (event : Event) : ProcessingView :=
  { processing with view := processing.view.post event }

/-- One round of `processEvents`, up to the signal of a changed state.  An action that does not
precede the change is executed behind the signal. -/
def take (view : OverlayHubView) (event : Event) (answer : Answer) : ProcessingView :=
  let view := { view with requested := event.request?.getD view.requested }
  let transition := reduce view.displayState event
  let executed :=
    if transition.actionBeforeStateChange then view.execute endpoint answer transition.action
    else view
  { view :=
      if transition.nextState ≠ view.displayState then
        executed.enterState endpoint transition.nextState
      else executed
    action := if transition.actionBeforeStateChange then .none else transition.action }

/-- The action that is due is executed, or else the next event is taken. -/
def work (processing : ProcessingView) (answer : Answer) : ProcessingView :=
  if processing.action = .none then
    match processing.view.events with
    | [] => processing
    | event :: rest => take endpoint { processing.view with events := rest } event answer
  else { view := processing.view.execute endpoint answer processing.action }

/-- The timers of a view. -/
inductive Timer where
  | confirmation
  | retry
  | health
  deriving DecidableEq, Repr

/-- A timer that runs out posts its event, and only the one of the health check runs on. -/
def timeout (processing : ProcessingView) : Timer → ProcessingView
  | .confirmation =>
      if processing.view.confirmationTimer then
        { processing with view := { processing.view with confirmationTimer := false } }.post
          .confirmationDue
      else processing
  | .retry =>
      if processing.view.retryTimer then
        { processing with view := { processing.view with retryTimer := false } }.post .retryDue
      else processing
  | .health => if processing.view.healthTimer then processing.post .healthDue else processing

/-- What happens to a view.  Everything but its own work reaches it at any time. -/
inductive Input where
  | setPresentationRequested (requested : Bool)
  | authorizePresentationActivation
  | notify (notification : Notification)
  | timeout (timer : Timer)
  | work (answer : Answer)
  deriving DecidableEq, Repr

def setPresentationRequested (processing : ProcessingView) (requested : Bool) : ProcessingView :=
  processing.post (if requested then .requestEnabled else .requestDisabled)

def authorizePresentationActivation (processing : ProcessingView) : ProcessingView :=
  processing.post .activationAuthorized

def step (processing : ProcessingView) : Input → ProcessingView
  | .setPresentationRequested requested => processing.setPresentationRequested requested
  | .authorizePresentationActivation => processing.authorizePresentationActivation
  | .notify notification => processing.post notification.event
  | .timeout timer => processing.timeout timer
  | .work answer => processing.work endpoint answer

end ProcessingView

end UwfManager
