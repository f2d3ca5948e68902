import Mathlib.Data.List.Basic
import Mathlib.Tactic.Common

/-!
# The coordinator of the taskbar layout

The coordinator attaches a window to the taskbar through one of several strategies.
All requests and all results of operations go through one queue.  The strategies and
the windows are given by what they answer; while they answer they may call the
coordinator again, which only lengthens the queue.
-/

namespace UwfManager

namespace TaskbarLayoutStrategy

inductive AttachReadiness where
  | ready
  | temporarilyUnavailable
  | unavailable
  deriving DecidableEq, Repr

inductive AttachResult where
  | attached
  | temporarilyUnavailable
  | incompatible
  | invalid
  deriving DecidableEq, Repr

inductive DetachResult where
  | detached
  | nativeWindowDestroyed
  | failed
  deriving DecidableEq, Repr

end TaskbarLayoutStrategy

open TaskbarLayoutStrategy (AttachReadiness DetachResult)

namespace TaskbarLayoutCoordinator

inductive DetachReason where
  | presentationReleased
  | hostInvalidated
  deriving DecidableEq, Repr

inductive DetachPhase where
  | started
  | blocked
  | completed
  deriving DecidableEq, Repr

structure DetachEvent where
  phase : DetachPhase := .completed
  reason : DetachReason := .presentationReleased
  deriving DecidableEq, Repr

inductive AttachResult where
  | prepared
  | attached
  | retained
  | temporarilyUnavailable
  | incompatible
  | releasePending
  | releaseBlocked
  | failed
  deriving DecidableEq, Repr

inductive DetachStatus where
  | alreadyDetached
  | pending
  deriving DecidableEq, Repr

inductive State where
  | detached
  | preparing
  | recreatingForPrepare
  | prepared
  | finalizing
  | repreparing
  | recreatingForActivation
  | recreatingForFailure
  | recreatingForIncompatible
  | attached
  | detaching
  | recreatingAfterDetach
  deriving DecidableEq, Repr

/-- The callbacks of a request are part of the shell; an absent one does nothing there. -/
structure AttachRequest (W : Type*) where
  window : W
  deriving DecidableEq

inductive EventType where
  | acquireRequested
  | activateRequested
  | detachRequested
  | hostInvalidated
  | operationPrepared
  | operationAttached
  | operationRetained
  | operationTemporary
  | operationIncompatible
  | operationFailed
  | operationRetryPrepare
  | operationRecreatePrepare
  | operationRecreateActivation
  | operationRecreateFailure
  | operationRecreateIncompatible
  | windowRecreated
  | windowRecreationFailed
  | operationNeedsDetach
  | detachDue
  | detachBlocked
  | detachCompleted
  deriving DecidableEq, Repr

inductive Action where
  | none
  | acceptRequest
  | prepare
  | finalize
  | completePrepared
  | completeAttached
  | completeRetained
  | completeTemporary
  | completeIncompatible
  | completeFailed
  | completeReleaseStatus
  | recreateWindow
  | recreateDetachedWindow
  | beginUserDetach
  | beginHostDetach
  | escalateHostDetach
  | scheduleDetach
  | advanceDetach
  | completeDetach
  | notifyDetachedHostRefresh
  deriving DecidableEq, Repr

structure Event (W : Type*) where
  type : EventType
  nativeWindowDestroyed : Bool := false
  attachRequest : Option (AttachRequest W) := none
  deriving DecidableEq

structure Transition where
  nextState : State
  action : Action := .none
  deriving DecidableEq

structure ActiveAttachment (S W : Type*) where
  strategy : S
  window : W
  deriving DecidableEq

inductive DetachmentCause where
  | userRequested
  | hostInvalidated
  deriving DecidableEq, Repr

inductive NativeWindowDisposition where
  | preserved
  | destroyed
  deriving DecidableEq, Repr

/-- `recreateWindow` tells whether the context has that callback. -/
structure DetachingContext (S W : Type*) where
  cause : DetachmentCause := .userRequested
  attachment : Option (ActiveAttachment S W) := none
  strategies : List S := []
  attempts : ℕ := 0
  disposition : NativeWindowDisposition := .preserved
  recreateWindow : Bool := false
  deriving DecidableEq

/-! ## The transition table -/

section Handlers

variable {W : Type*} (state : State) (event : Event W)

def ignoreEvent : Transition := ⟨state, .none⟩

def beginPrepare : Transition := ⟨.preparing, .acceptRequest⟩

def beginFinalize : Transition := ⟨.finalizing, .finalize⟩

def prepared : Transition := ⟨.prepared, .completePrepared⟩

def attached : Transition := ⟨.attached, .completeAttached⟩

def retained : Transition := ⟨.attached, .completeRetained⟩

def temporary : Transition := ⟨.detached, .completeTemporary⟩

def incompatible : Transition := ⟨.detached, .completeIncompatible⟩

def failed : Transition := ⟨.detached, .completeFailed⟩

def retryPrepare : Transition := ⟨.repreparing, .prepare⟩

def recreateForPrepare : Transition := ⟨.recreatingForPrepare, .recreateWindow⟩

def recreateForActivation : Transition := ⟨.recreatingForActivation, .recreateWindow⟩

def recreateForFailure : Transition := ⟨.recreatingForFailure, .recreateWindow⟩

def recreateForIncompatible : Transition := ⟨.recreatingForIncompatible, .recreateWindow⟩

def resumePrepare : Transition := ⟨.preparing, .prepare⟩

def resumeActivation : Transition := ⟨.repreparing, .prepare⟩

def completeAfterRecreation : Transition :=
  if event.type = .windowRecreationFailed then ⟨.detached, .completeFailed⟩
  else ⟨.detached,
    if state = .recreatingForIncompatible then .completeIncompatible else .completeFailed⟩

def failWindowRecreation : Transition := ⟨.detached, .completeFailed⟩

def needsDetach : Transition := ⟨.detaching, .beginUserDetach⟩

def beginUserDetach : Transition := ⟨.detaching, .beginUserDetach⟩

def beginHostDetach : Transition := ⟨.detaching, .beginHostDetach⟩

def escalateHostDetach : Transition := ⟨state, .escalateHostDetach⟩

def advanceDetach : Transition := ⟨state, .advanceDetach⟩

def repeatDetach : Transition := ⟨state, .scheduleDetach⟩

def completeDetach : Transition :=
  if event.nativeWindowDestroyed then ⟨.recreatingAfterDetach, .recreateDetachedWindow⟩
  else ⟨.detached, .completeDetach⟩

def finishDetachedRecreation : Transition := ⟨.detached, .completeDetach⟩

def notifyDetachedHostRefresh : Transition := ⟨state, .notifyDetachedHostRefresh⟩

def reportReleaseStatus : Transition := ⟨state, .completeReleaseStatus⟩

/-- The states in which a detachment can begin. -/
def activeStates : List State :=
  [.preparing, .recreatingForPrepare, .prepared, .finalizing, .repreparing,
    .recreatingForActivation, .recreatingForFailure, .recreatingForIncompatible, .attached]

def reduce : Transition :=
  match state, event.type with
  | .detached, .acquireRequested | .attached, .acquireRequested => beginPrepare
  | .prepared, .activateRequested => beginFinalize
  | .attached, .activateRequested => attached
  | .detached, .activateRequested => failed
  | .detaching, .activateRequested => reportReleaseStatus state
  | .preparing, .operationPrepared => prepared
  | .preparing, .operationRetained => retained
  | .preparing, .operationTemporary => temporary
  | .preparing, .operationIncompatible => incompatible
  | .preparing, .operationFailed => failed
  | .preparing, .operationRecreatePrepare => recreateForPrepare
  | .preparing, .operationRecreateFailure => recreateForFailure
  | .preparing, .operationRecreateIncompatible => recreateForIncompatible
  | .preparing, .operationNeedsDetach => needsDetach
  | .recreatingForPrepare, .windowRecreated => resumePrepare
  | .recreatingForPrepare, .windowRecreationFailed => failWindowRecreation
  | .finalizing, .operationAttached => attached
  | .finalizing, .operationTemporary => temporary
  | .finalizing, .operationIncompatible => incompatible
  | .finalizing, .operationFailed => failed
  | .finalizing, .operationRetryPrepare => retryPrepare
  | .finalizing, .operationRecreateActivation => recreateForActivation
  | .finalizing, .operationRecreateFailure => recreateForFailure
  | .finalizing, .operationRecreateIncompatible => recreateForIncompatible
  | .finalizing, .operationNeedsDetach => needsDetach
  | .repreparing, .operationPrepared => beginFinalize
  | .repreparing, .operationRetained => retained
  | .repreparing, .operationTemporary => temporary
  | .repreparing, .operationIncompatible => incompatible
  | .repreparing, .operationFailed => failed
  | .repreparing, .operationRecreateActivation => recreateForActivation
  | .repreparing, .operationRecreateFailure => recreateForFailure
  | .repreparing, .operationRecreateIncompatible => recreateForIncompatible
  | .repreparing, .operationNeedsDetach => needsDetach
  | .recreatingForActivation, .windowRecreated => resumeActivation
  | .recreatingForActivation, .windowRecreationFailed => failWindowRecreation
  | .recreatingForFailure, .windowRecreated | .recreatingForFailure, .windowRecreationFailed
  | .recreatingForIncompatible, .windowRecreated
  | .recreatingForIncompatible, .windowRecreationFailed => completeAfterRecreation state event
  | .detached, .hostInvalidated => notifyDetachedHostRefresh state
  | .detaching, .hostInvalidated => escalateHostDetach state
  | .detaching, .acquireRequested => reportReleaseStatus state
  | .recreatingAfterDetach, .acquireRequested
  | .recreatingAfterDetach, .activateRequested => reportReleaseStatus state
  | .detaching, .detachDue => advanceDetach state
  | .detaching, .detachBlocked => repeatDetach state
  | .detaching, .detachCompleted => completeDetach event
  | .recreatingAfterDetach, .windowRecreated
  | .recreatingAfterDetach, .windowRecreationFailed => finishDetachedRecreation
  | state, .detachRequested =>
      if state ∈ activeStates then beginUserDetach else ignoreEvent state
  | state, .hostInvalidated =>
      if state ∈ activeStates then beginHostDetach else ignoreEvent state
  | state, _ => ignoreEvent state

end Handlers

/-- What a strategy or a window, while it answers, can call on the coordinator, and what
comes from outside.  `none` stands for a request without a window or without a way to
recreate it, which is refused at once. -/
inductive Arrival (W : Type*) where
  | prepareAttach (window : Option W)
  | activatePrepared
  | detach
  | hostInvalidated
  | timeout
  deriving DecidableEq

/-- What has happened around the coordinator.  `received` is a host that was invalidated,
with whether anything was held then. -/
inductive LogEntry (S W : Type*) where
  | committed (strategy : S) (window : W) (result : TaskbarLayoutStrategy.AttachResult)
  | finalized (strategy : S) (result : TaskbarLayoutStrategy.AttachResult)
  | rolledBack (strategy : S) (result : DetachResult)
  | detached (strategy : S) (result : DetachResult)
  | invalidated (strategy : S) (result : DetachResult)
  | shown (window : W)
  | hidden (window : W)
  | received (holding : Bool)
  | published (event : DetachEvent)
  | refreshScheduled
  deriving DecidableEq

end TaskbarLayoutCoordinator

open TaskbarLayoutCoordinator

/-- An answer, what was called on the coordinator meanwhile, and the state after it. -/
structure Reply (σ W α : Type*) where
  value : α
  raised : List (Arrival W) := []
  shell : σ

/-- The strategies and the windows, with a state of any kind.  `prepareAttach` answers with
the readiness of a transaction, if it makes one; a pointer to a window that is no longer
alive is null. -/
structure TaskbarShell (σ S W : Type*) where
  prepareAttach : S → Option W → σ → Reply σ W (Option AttachReadiness)
  commit : S → σ → Reply σ W TaskbarLayoutStrategy.AttachResult
  finalize : S → σ → Reply σ W TaskbarLayoutStrategy.AttachResult
  rollback : S → σ → Reply σ W DetachResult
  detach : S → σ → Reply σ W DetachResult
  invalidate : S → σ → Reply σ W DetachResult
  showWindow : W → σ → Reply σ W Unit
  hideWindow : W → σ → Reply σ W Unit
  recreateWindow : σ → Reply σ W (Option W)
  alive : W → σ → Bool

/-- The coordinator with the state of its shell and a log.  The timer holds its interval
while it is armed. -/
structure TaskbarLayoutCoordinator (σ S W : Type*) where
  strategies : List S
  processIncompatibleStrategies : List S := []
  state : State := .detached
  events : List (Event W) := []
  notifications : List DetachEvent := []
  hostRefreshScheduled : Bool := false
  request : Option (AttachRequest W) := none
  attachment : Option (ActiveAttachment S W) := none
  preparedStrategy : Option S := none
  transaction : Option S := none
  detaching : Option (DetachingContext S W) := none
  lastAttachResult : AttachResult := .failed
  asyncTimer : Option ℕ := none
  shell : σ
  log : List (LogEntry S W) := []

namespace TaskbarLayoutCoordinator

def kFastRetryAttempts : ℕ := 3

def kFastRetryIntervalMs : ℕ := 1000

def kSlowRetryIntervalMs : ℕ := 5000

variable {σ S W : Type*} (c : TaskbarLayoutCoordinator σ S W)

def holds : Bool := c.attachment.isSome || c.transaction.isSome || c.detaching.isSome

def record (entry : LogEntry S W) : TaskbarLayoutCoordinator σ S W :=
  { c with log := c.log ++ [entry] }

/-- `postEvent` while events are processed -/
def post (type : EventType) (nativeWindowDestroyed : Bool) : TaskbarLayoutCoordinator σ S W :=
  { c with events := c.events ++ [{ type := type, nativeWindowDestroyed := nativeWindowDestroyed }] }

/-- A call from outside up to the processing of the queue.  `detach` finds nothing to do in
the state `detached`, and the timer fires once. -/
def raise : Arrival W → TaskbarLayoutCoordinator σ S W
  | .prepareAttach none => c
  | .prepareAttach (some window) =>
      { c with
        lastAttachResult := .failed
        events := c.events ++
          [{ type := .acquireRequested, attachRequest := some { window := window } }] }
  | .activatePrepared =>
      { c with
        lastAttachResult := .failed
        events := c.events ++ [{ type := .activateRequested }] }
  | .detach => if c.state = .detached then c else c.post .detachRequested false
  | .hostInvalidated => (c.record (.received c.holds)).post .hostInvalidated false
  | .timeout =>
      if c.asyncTimer.isSome then { c with asyncTimer := none }.post .detachDue false else c

/-- Lets the shell answer, together with what it calls meanwhile. -/
def call {α : Type*} (answer : σ → Reply σ W α) : α × TaskbarLayoutCoordinator σ S W :=
  ((answer c.shell).value,
    (answer c.shell).raised.foldl raise { c with shell := (answer c.shell).shell })

def publish (event : DetachEvent) : TaskbarLayoutCoordinator σ S W :=
  { c with
    notifications := c.notifications ++ [event]
    log := c.log ++ [.published event] }

variable [DecidableEq S] [DecidableEq W] (calls : TaskbarShell σ S W)

def isProcessIncompatible (strategy : S) : Bool :=
  c.processIncompatibleStrategies.contains strategy

def markProcessIncompatible (strategy : S) : TaskbarLayoutCoordinator σ S W :=
  if c.isProcessIncompatible strategy then c
  else { c with processIncompatibleStrategies := c.processIncompatibleStrategies ++ [strategy] }

def markIf (incompatible : Bool) (strategy : S) : TaskbarLayoutCoordinator σ S W :=
  if incompatible then c.markProcessIncompatible strategy else c

def hasProcessCompatibleStrategy : Bool :=
  c.strategies.any fun strategy => !c.isProcessIncompatible strategy

def pointer (window : W) : Option W := if calls.alive window c.shell then some window else none

def hideWindow (window : W) : TaskbarLayoutCoordinator σ S W :=
  (c.record (.hidden window)).call (calls.hideWindow window) |>.2

def commit (window : W) (strategy : S) :
    TaskbarLayoutStrategy.AttachResult × TaskbarLayoutCoordinator σ S W :=
  let answered := c.call (calls.commit strategy)
  (answered.1, answered.2.record (.committed strategy window answered.1))

def rollback (strategy : S) : DetachResult × TaskbarLayoutCoordinator σ S W :=
  let answered := c.call (calls.rollback strategy)
  (answered.1, answered.2.record (.rolledBack strategy answered.1))

def detachStrategy (strategy : S) : DetachResult × TaskbarLayoutCoordinator σ S W :=
  let answered := c.call (calls.detach strategy)
  (answered.1, answered.2.record (.detached strategy answered.1))

/-! ## `runPrepare` -/

/-- The event that asks for a new window before the request is tried once more. -/
def recreateForRetry : EventType :=
  if c.state = .repreparing then .operationRecreateActivation else .operationRecreatePrepare

/-- The attachment belongs to the strategy and to the window of the request. -/
def attachmentServes (request : AttachRequest W) (strategy : S) : Bool :=
  c.attachment.any fun attachment => attachment.strategy == strategy &&
    c.pointer calls attachment.window == c.pointer calls request.window

/-- Releases an attachment of another strategy or window; `false` if an event is posted
instead. -/
def releaseOther (request : AttachRequest W) (strategy : S) :
    Bool × TaskbarLayoutCoordinator σ S W :=
  match c.attachment with
  | none => (true, c)
  | some attachment =>
      if c.attachmentServes calls request strategy then (true, c)
      else
        let released := (c.hideWindow calls attachment.window).detachStrategy calls
          attachment.strategy
        match released.1 with
        | .failed =>
            (false, { released.2 with preparedStrategy := some attachment.strategy }.post
              .operationNeedsDetach false)
        | .nativeWindowDestroyed =>
            (false, { released.2 with attachment := none }.post
              released.2.recreateForRetry false)
        | .detached => (true, { released.2 with attachment := none })

/-- What follows a rollback that has destroyed the window of a failed commit. -/
def afterTakeBack (committed : TaskbarLayoutStrategy.AttachResult) : EventType :=
  if committed = .incompatible then
    if c.hasProcessCompatibleStrategy then c.recreateForRetry else .operationRecreateIncompatible
  else .operationRecreateFailure

/-- Takes back a commit that has not attached the window; `none` if an event is posted,
else whether the failure is a temporary one. -/
def takeBack (request : AttachRequest W) (strategy : S)
    (committed : TaskbarLayoutStrategy.AttachResult) :
    Option Bool × TaskbarLayoutCoordinator σ S W :=
  let undone := ((c.hideWindow calls request.window).markIf (committed = .incompatible)
    strategy).rollback calls strategy
  let released : TaskbarLayoutCoordinator σ S W :=
    { undone.2 with attachment := undone.2.attachment.filter (·.strategy != strategy) }
  match undone.1 with
  | .failed =>
      (none, { undone.2 with
        preparedStrategy := some strategy
        attachment := some ⟨strategy, request.window⟩ }.post .operationNeedsDetach false)
  | .nativeWindowDestroyed => (none, released.post (released.afterTakeBack committed) false)
  | .detached => (some (committed = .temporarilyUnavailable), released)

/-- Commits the transaction of a strategy that is ready. -/
def commitReady (request : AttachRequest W) (strategy : S) :
    Option Bool × TaskbarLayoutCoordinator σ S W :=
  let committed := c.commit calls request.window strategy
  match committed.1 with
  | .attached =>
      (none, { committed.2 with
        preparedStrategy := some strategy
        transaction := some strategy
        attachment := some ⟨strategy, request.window⟩ }.post .operationPrepared false)
  | result => committed.2.takeBack calls request strategy result

/-- Tries one strategy; `none` if an event is posted, else whether its failure is a
temporary one. -/
def tryStrategy (request : AttachRequest W) (strategy : S) :
    Option Bool × TaskbarLayoutCoordinator σ S W :=
  let made := c.call (calls.prepareAttach strategy (c.pointer calls request.window))
  match made.1 with
  | none => (some false, made.2)
  | some .temporarilyUnavailable =>
      if made.2.attachmentServes calls request strategy then
        (none, made.2.post .operationRetained false)
      else (some true, made.2)
  | some .unavailable => (some false, made.2)
  | some .ready =>
      let released := made.2.releaseOther calls request strategy
      if released.1 then released.2.commitReady calls request strategy else (none, released.2)

/-- What is left when no strategy has taken the window. -/
def giveUp (temporary : Bool) : TaskbarLayoutCoordinator σ S W :=
  c.post
    (if temporary then .operationTemporary
    else if !c.strategies.isEmpty && !c.hasProcessCompatibleStrategy then .operationIncompatible
    else .operationFailed) false

/-- The end of `runPrepare`: an attachment that no strategy has kept is released. -/
def releaseLast (temporary : Bool) : TaskbarLayoutCoordinator σ S W :=
  match c.attachment with
  | none => c.giveUp temporary
  | some attachment =>
      let released := (c.hideWindow calls attachment.window).detachStrategy calls
        attachment.strategy
      match released.1 with
      | .failed => released.2.post .operationNeedsDetach false
      | .nativeWindowDestroyed =>
          { released.2 with attachment := none }.post .operationRecreateFailure false
      | .detached => { released.2 with attachment := none }.giveUp temporary

def tryStrategies (request : AttachRequest W) :
    List S → Bool → TaskbarLayoutCoordinator σ S W → TaskbarLayoutCoordinator σ S W
  | [], temporary, c => c.releaseLast calls temporary
  | strategy :: strategies, temporary, c =>
      if c.isProcessIncompatible strategy then tryStrategies request strategies temporary c
      else
        match c.tryStrategy calls request strategy with
        | (none, c) => c
        | (some failed, c) => tryStrategies request strategies (temporary || failed) c

def needsDetachOrFailed : EventType :=
  if c.attachment.isSome || c.transaction.isSome then .operationNeedsDetach else .operationFailed

def runPrepare : TaskbarLayoutCoordinator σ S W :=
  match c.request with
  | none => c.post c.needsDetachOrFailed false
  | some request =>
      if calls.alive request.window c.shell then
        tryStrategies calls request c.strategies false c
      else c.post c.needsDetachOrFailed false

/-! ## `runFinalize` -/

/-- What follows a rollback that has released the window of a failed `finalize`. -/
def afterRollback (finalized : TaskbarLayoutStrategy.AttachResult) (windowDestroyed : Bool) :
    EventType :=
  if finalized = .incompatible then
    if c.hasProcessCompatibleStrategy then
      if windowDestroyed then .operationRecreateActivation else .operationRetryPrepare
    else if windowDestroyed then .operationRecreateIncompatible else .operationIncompatible
  else if windowDestroyed then .operationRecreateFailure
  else if finalized = .temporarilyUnavailable then .operationTemporary
  else .operationFailed

def markPrepared (finalized : TaskbarLayoutStrategy.AttachResult) :
    TaskbarLayoutCoordinator σ S W :=
  match c.preparedStrategy with
  | some strategy => c.markIf (finalized = .incompatible) strategy
  | none => c

/-- Shows the window and finalizes its transaction, and takes both back on a failure. -/
def finalizeTransaction (request : AttachRequest W) (strategy : S) :
    TaskbarLayoutCoordinator σ S W :=
  let shown := ((c.record (.shown request.window)).call (calls.showWindow request.window)).2
  let answered := shown.call (calls.finalize strategy)
  let finalized := answered.2.record (.finalized strategy answered.1)
  if answered.1 = .attached then finalized.post .operationAttached false
  else
    let undone := ((finalized.hideWindow calls request.window).markPrepared answered.1).rollback
      calls strategy
    if undone.1 = .failed then
      { undone.2 with transaction := none }.post .operationNeedsDetach false
    else
      let released : TaskbarLayoutCoordinator σ S W :=
        { undone.2 with transaction := none, attachment := none, preparedStrategy := none }
      released.post
        (released.afterRollback answered.1 (undone.1 = .nativeWindowDestroyed)) false

def runFinalize : TaskbarLayoutCoordinator σ S W :=
  match c.request, c.transaction with
  | some request, some strategy =>
      if calls.alive request.window c.shell && c.attachment.isSome then
        c.finalizeTransaction calls request strategy
      else c.post c.needsDetachOrFailed false
  | _, _ => c.post c.needsDetachOrFailed false

/-! ## Windows -/

def recreateWindow : TaskbarLayoutCoordinator σ S W :=
  match c.request with
  | none => c.post .windowRecreationFailed false
  | some _ =>
      let recreated := c.call calls.recreateWindow
      match recreated.1 with
      | none => recreated.2.post .windowRecreationFailed false
      | some window =>
          { recreated.2 with request := some { window := window } }.post .windowRecreated false

def recreateDetachedWindow : TaskbarLayoutCoordinator σ S W :=
  if c.detaching.any (·.recreateWindow) then
    let recreated := c.call calls.recreateWindow
    recreated.2.post
      (if recreated.1.isSome then .windowRecreated else .windowRecreationFailed) false
  else c.post .windowRecreationFailed false

/-! ## Detaching -/

/-- The rollback with which a detachment begins; `none` without a transaction. -/
def rollbackPrepared : Option DetachResult × TaskbarLayoutCoordinator σ S W :=
  match c.transaction with
  | none => (none, c)
  | some strategy =>
      let undone := c.rollback calls strategy
      (some undone.1, { undone.2 with transaction := none })

def hideAttachment : TaskbarLayoutCoordinator σ S W :=
  match c.attachment with
  | none => c
  | some attachment => c.hideWindow calls attachment.window

/-- The context of a detachment after the rollback of the prepared transaction.  A failed
rollback leaves the attachment to be released. -/
def detachingContext (cause : DetachmentCause) (rolledBack : Option DetachResult) :
    DetachingContext S W :=
  let attachment := match rolledBack with
    | none | some .failed => c.attachment
    | some _ => none
  { cause := cause
    attachment := attachment
    strategies :=
      if cause = .hostInvalidated then c.strategies
      else match attachment with
        | some attachment => [attachment.strategy]
        | none => if rolledBack = some .failed then c.preparedStrategy.toList else []
    disposition := if rolledBack = some .nativeWindowDestroyed then .destroyed else .preserved
    recreateWindow := c.attachment.isSome || c.request.isSome }

/-- The attachment stays in its place until the detachment is complete: moving an optional
value out leaves the optional engaged. -/
def beginDetaching (cause : DetachmentCause) : TaskbarLayoutCoordinator σ S W :=
  let rolledBack := ({ c with lastAttachResult := .releasePending }.hideAttachment
    calls).rollbackPrepared calls
  let context := rolledBack.2.detachingContext cause rolledBack.1
  let begun : TaskbarLayoutCoordinator σ S W :=
    { rolledBack.2 with preparedStrategy := none, detaching := some context }
  let announced := if cause = .hostInvalidated then begun.publish ⟨.started, .hostInvalidated⟩
    else begun
  announced.post (if context.strategies.isEmpty then .detachCompleted else .detachBlocked)
    (context.disposition = .destroyed)

def DetachmentCause.reason : DetachmentCause → DetachReason
  | userRequested => .presentationReleased
  | hostInvalidated => .hostInvalidated

/-- Releases one strategy in the way that the cause asks for. -/
def release (cause : DetachmentCause) (strategy : S) :
    DetachResult × TaskbarLayoutCoordinator σ S W :=
  match cause with
  | .userRequested => c.detachStrategy calls strategy
  | .hostInvalidated =>
      let answered := c.call (calls.invalidate strategy)
      (answered.1, answered.2.record (.invalidated strategy answered.1))

/-- The context without a strategy that has been released. -/
def DetachingContext.released (context : DetachingContext S W) (strategy : S)
    (result : DetachResult) : DetachingContext S W :=
  { context with
    disposition := if result = .nativeWindowDestroyed then .destroyed else context.disposition
    attachment := context.attachment.filter (·.strategy != strategy) }

/-- Releases the strategies in their order; those that fail are left in the context. -/
def releaseStrategies : List S → DetachingContext S W → TaskbarLayoutCoordinator σ S W →
    DetachingContext S W × TaskbarLayoutCoordinator σ S W
  | [], context, c => ({ context with strategies := [] }, c)
  | strategy :: strategies, context, c =>
      let released := c.release calls context.cause strategy
      if released.1 = .failed then
        let rest := releaseStrategies strategies context released.2
        ({ rest.1 with strategies := strategy :: rest.1.strategies }, rest.2)
      else releaseStrategies strategies (context.released strategy released.1) released.2

def advanceDetaching : TaskbarLayoutCoordinator σ S W :=
  match c.detaching with
  | none => c
  | some context =>
      let advanced := releaseStrategies calls context.strategies
        { context with attempts := context.attempts + 1 } c
      let left : TaskbarLayoutCoordinator σ S W := { advanced.2 with detaching := some advanced.1 }
      if advanced.1.strategies.isEmpty then
        left.post .detachCompleted (advanced.1.disposition = .destroyed)
      else
        let announced := if advanced.1.attempts = 1 then
            left.publish ⟨.blocked, advanced.1.cause.reason⟩
          else left
        { announced with
          asyncTimer := some (if advanced.1.attempts < kFastRetryAttempts then
            kFastRetryIntervalMs else kSlowRetryIntervalMs) }

/-- An invalidated host begins a new round over all strategies. -/
def escalateDetaching : TaskbarLayoutCoordinator σ S W :=
  match c.detaching with
  | none => c
  | some context =>
      if context.cause = .hostInvalidated then c
      else
        let escalated : TaskbarLayoutCoordinator σ S W :=
          { c with
            detaching := some { context with
              cause := .hostInvalidated
              attempts := 0
              strategies := context.strategies ++
                c.strategies.filter fun strategy => !context.strategies.contains strategy } }
        { escalated.publish ⟨.started, .hostInvalidated⟩ with asyncTimer := some 0 }

def finishDetaching : TaskbarLayoutCoordinator σ S W :=
  let completed : TaskbarLayoutCoordinator σ S W :=
    { c with
      detaching := none
      attachment := none
      transaction := none
      preparedStrategy := none
      request := none }
  completed.publish ⟨.completed, (c.detaching.elim .userRequested (·.cause)).reason⟩

/-! ## Actions -/

def finishOperation (result : AttachResult) : TaskbarLayoutCoordinator σ S W :=
  { c with
    lastAttachResult := result
    request := if result = .prepared then c.request else none }

def releaseStatus : AttachResult :=
  if c.state = .recreatingAfterDetach || c.detaching.all (·.attempts == 0) then .releasePending
  else .releaseBlocked

def scheduleDetachedHostRefresh : TaskbarLayoutCoordinator σ S W :=
  if !c.hasProcessCompatibleStrategy || c.hostRefreshScheduled then c
  else { c with hostRefreshScheduled := true }.record .refreshScheduled

def execute (action : Action) (event : Event W) : TaskbarLayoutCoordinator σ S W :=
  match action with
  | .none => c
  | .acceptRequest => { c with request := event.attachRequest }.runPrepare calls
  | .prepare => c.runPrepare calls
  | .finalize => c.runFinalize calls
  | .completePrepared => c.finishOperation .prepared
  | .completeAttached =>
      { c with transaction := none, preparedStrategy := none }.finishOperation .attached
  | .completeRetained => c.finishOperation .retained
  | .completeTemporary => c.finishOperation .temporarilyUnavailable
  | .completeIncompatible => c.finishOperation .incompatible
  | .completeFailed => c.finishOperation .failed
  | .completeReleaseStatus => c.finishOperation c.releaseStatus
  | .recreateWindow => c.recreateWindow calls
  | .recreateDetachedWindow => c.recreateDetachedWindow calls
  | .beginUserDetach => c.beginDetaching calls .userRequested
  | .beginHostDetach => c.beginDetaching calls .hostInvalidated
  | .escalateHostDetach => c.escalateDetaching
  | .scheduleDetach => { c with asyncTimer := some 0 }
  | .advanceDetach => c.advanceDetaching calls
  | .completeDetach => c.finishDetaching
  | .notifyDetachedHostRefresh => c.scheduleDetachedHostRefresh

/-- One round of `processEvents` -/
def handle (event : Event W) : TaskbarLayoutCoordinator σ S W :=
  let transition := reduce c.state event
  { c with state := transition.nextState }.execute calls transition.action event

/-! ## Runs -/

/-- The coordinator as its constructor leaves it. -/
def construct (strategies : List S) (shell : σ) : TaskbarLayoutCoordinator σ S W :=
  { strategies := strategies, shell := shell }

/-- What can happen next: the queue is processed while there is an event in it; else
something arrives, the scheduled refresh is due, or the observer takes a notification. -/
inductive Move (W : Type*) where
  | process
  | arrive (arrival : Arrival W)
  | refresh
  | notify

def step (c : TaskbarLayoutCoordinator σ S W) : Move W → TaskbarLayoutCoordinator σ S W
  | .process =>
      match c.events with
      | [] => c
      | event :: events => { c with events := events }.handle calls event
  | .arrive arrival => if c.events.isEmpty then c.raise arrival else c
  | .refresh =>
      if c.events.isEmpty && c.hostRefreshScheduled then
        { c with
          hostRefreshScheduled := false
          notifications := c.notifications ++ [⟨.completed, .hostInvalidated⟩] }
      else c
  | .notify =>
      if c.events.isEmpty then { c with notifications := c.notifications.tail } else c

end TaskbarLayoutCoordinator

end UwfManager
