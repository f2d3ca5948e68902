import UwfManager.Power.PowerCoordinator
import UwfManager.Staging.FileStagingProgressViewModel

/-!
# The dialog of a power action

The view model polls the preparation, advances the commit and turns the answers of the
user into an outcome.  The two callbacks of the request share the locals of the
coordinator, which are passed along; what they answer besides is given by the caller.
-/

namespace UwfManager

/-! ## The lifecycle -/

namespace PowerDialogState

inductive State where
  | preparing
  | confirmation
  | staging
  | failureDecision
  | confirmed
  | canceled
  deriving DecidableEq, Repr

inductive Event where
  | preparationReady
  | beginStaging
  | stagingCompleted
  | failureObserved
  | confirm
  | cancel
  deriving DecidableEq, Repr

def transitions : State → Event → Option State
  | .preparing, .preparationReady => some .confirmation
  | .preparing, .failureObserved => some .failureDecision
  | .preparing, .cancel => some .canceled
  | .confirmation, .beginStaging => some .staging
  | .confirmation, .failureObserved => some .failureDecision
  | .confirmation, .confirm => some .confirmed
  | .confirmation, .cancel => some .canceled
  | .staging, .stagingCompleted => some .confirmed
  | .staging, .failureObserved => some .failureDecision
  | .failureDecision, .confirm => some .confirmed
  | .failureDecision, .cancel => some .canceled
  | _, _ => none

end PowerDialogState

structure PowerDialogState where
  state : PowerDialogState.State
  failureObserved : Bool := false
  deriving DecidableEq

namespace PowerDialogState

def terminal (lifecycle : PowerDialogState) : Bool :=
  lifecycle.state = .confirmed || lifecycle.state = .canceled

def post (event : Event) (lifecycle : PowerDialogState) : Except Thrown PowerDialogState :=
  match transitions lifecycle.state event with
  | none => .error (logicError "invalid power dialog state transition".toList)
  | some next =>
      .ok
        { state := next
          failureObserved := lifecycle.failureObserved || event = .failureObserved }

def outcome (lifecycle : PowerDialogState) : Except Thrown PowerActionDialogOutcome :=
  if !lifecycle.terminal then
    .error (logicError "power dialog outcome requested before a terminal state".toList)
  else if lifecycle.state = .confirmed then
    .ok (if lifecycle.failureObserved then .continuedAfterStagingFailure else .confirmed)
  else .ok (if lifecycle.failureObserved then .canceledAfterStagingFailure else .canceled)

end PowerDialogState

/-! ## The view model -/

def progressValue (value : UInt64) : ℤ := min value.toNat (2 ^ 31 - 1 : ℕ)

/-- What a call of an empty `std::function` throws. -/
def badFunctionCall : Thrown := .standard { what := "bad function call".toList }

namespace PowerDialogViewModel

inductive Signal where
  | failureObserved (status : PowerStagingProgress)
  | progressChanged (status : PowerStagingProgress)
  | preparationReady
  | stagingBegan
  | accepted

end PowerDialogViewModel

/-- A running timer holds its interval; `preparationElapsed` the clock when it was
started. -/
structure PowerDialogViewModel where
  request : PowerActionDialogRequest
  pollSet : Bool
  preparationRequired : Bool
  lifecycle : PowerDialogState
  filesToCommit : UInt64 := 0
  advanceSet : Bool := false
  preparationTimer : Option ℕ := none
  preparationElapsed : Option ℕ := none
  completedPreparation : Option PowerStagingPreparation := none
  stepTimer : Option ℕ := none
  directSelected : Bool := false
  directConfirmationOpen : Bool := false
  stagingStarted : Bool := false
  failureCanContinue : Bool := false
  displayedProgress : ℤ := 0

/-- The callbacks of a request: `α` is what the services answer to one call, `σ` what the
callbacks share. -/
structure PowerDialogCallbacks (σ α : Type) where
  poll : α → σ → Except Thrown (Option PowerStagingPreparation) × σ
  advance : α → σ → Except Thrown PowerStagingProgress × σ

namespace PowerDialogViewModel

/-- What a slot leaves behind, with the signals in the order of their emission. -/
abbrev Emitted := Except Thrown (PowerDialogViewModel × List Signal)

def construct (request : PowerActionDialogRequest) (preparation : Bool) :
    Except Thrown PowerDialogViewModel :=
  if preparation && request.completedStagingFailure.isSome then
    .error (logicError
      "power dialog cannot prepare and reuse a completed staging result simultaneously".toList)
  else if request.mode = .direct &&
      (preparation || request.completedStagingFailure.isSome) then
    .error (logicError "direct power dialog cannot prepare or reuse file staging".toList)
  else
    .ok
      { request := request
        pollSet := preparation
        preparationRequired := preparation
        lifecycle := { state := if preparation then .preparing else .confirmation } }

variable (viewModel : PowerDialogViewModel)

def post (event : PowerDialogState.Event) (signals : List Signal) : Emitted :=
  match viewModel.lifecycle.post event with
  | .error thrown => .error thrown
  | .ok lifecycle => .ok ({ viewModel with lifecycle := lifecycle }, signals)

def recordProgress (status : PowerStagingProgress) : PowerDialogViewModel :=
  let maximum := max 1 (progressValue status.totalFiles)
  let displayed := if viewModel.displayedProgress > maximum then -1 else viewModel.displayedProgress
  let value := progressValue status.processedFiles
  { viewModel with displayedProgress := if value ≤ maximum then value else displayed }

def canContinueAfter (status : PowerStagingProgress) : Bool :=
  status.failureResult.any fun result => !result.succeeded

def showFailure (status : PowerStagingProgress) : Emitted :=
  let stopped :=
    { viewModel with
      preparationTimer := none
      stepTimer := none
      failureCanContinue := canContinueAfter status }
  match stopped.lifecycle.post .failureObserved with
  | .error thrown => .error thrown
  | .ok lifecycle =>
      .ok ({ stopped with lifecycle := lifecycle }.recordProgress status,
        [.failureObserved status])

/-- The status under which a failure of the preparation is shown. -/
def failureStatus (failure : PowerStagingFailure) : PowerStagingProgress where
  state := .failed
  failureDetails := failure.details
  failureResult := failure.result

def start : Emitted :=
  match viewModel.request.completedStagingFailure with
  | some failure => viewModel.showFailure (failureStatus failure)
  | none =>
      if viewModel.preparationRequired then
        .ok ({ viewModel with preparationTimer := some kProgressUpdateInterval }, [])
      else .ok (viewModel, [])

/-- The status of a step whose callback threw. -/
def failedStep (thrown : Thrown) : PowerStagingProgress where
  state := .failed
  processedFiles := UInt64.ofNat (max 0 viewModel.displayedProgress).toNat
  totalFiles := viewModel.filesToCommit
  failureDetails := stoppedUnexpectedly thrown

/-- `advanceStaging` from the answer of its callback on. -/
def stepped (status : PowerStagingProgress) : Emitted :=
  let recorded := viewModel.recordProgress status
  if recorded.lifecycle.terminal then .ok (recorded, [.progressChanged status])
  else
    match status.state with
    | .inProgress =>
        .ok ({ recorded with stepTimer := some kProgressUpdateInterval },
          [.progressChanged status])
    | .completed => recorded.post .stagingCompleted [.progressChanged status, .accepted]
    | .failed =>
        match recorded.showFailure status with
        | .error thrown => .error thrown
        | .ok (failed, signals) => .ok (failed, .progressChanged status :: signals)

section Callbacks

variable {σ α : Type} (callbacks : PowerDialogCallbacks σ α) (answers : α) (shared : σ)

def advanceStaging : Emitted × σ :=
  let (answer, shared) :=
    if viewModel.advanceSet then callbacks.advance answers shared
    else (.error badFunctionCall, shared)
  match answer with
  | .ok status => (viewModel.stepped status, shared)
  | .error thrown => (viewModel.stepped (viewModel.failedStep thrown), shared)

/-- The prepared result, kept from an earlier poll or asked for now. -/
def prepare : Option PowerStagingPreparation × σ :=
  match viewModel.completedPreparation with
  | some prepared => (some prepared, shared)
  | none =>
      let (answer, shared) :=
        if viewModel.pollSet then callbacks.poll answers shared
        else (.error badFunctionCall, shared)
      match answer with
      | .ok prepared => (prepared, shared)
      | .error thrown => (some (.failure { details := stoppedUnexpectedly thrown }), shared)

/-- The callback is given back before the result is shown. -/
def publish (prepared : PowerStagingPreparation) : Emitted :=
  let taken := { viewModel with pollSet := false, completedPreparation := none }
  match prepared with
  | .failure failure => taken.showFailure (failureStatus failure)
  | .commit filesToCommit =>
      { taken with filesToCommit := filesToCommit, advanceSet := true }.post .preparationReady
        [.preparationReady]
  | .notRequired => taken.post .preparationReady [.preparationReady]

/-- `now` is the clock when the poll has returned; a result is shown once the dialog has
been calculating for a second. -/
def polled (now : ℕ) (prepared : Option PowerStagingPreparation) : Emitted :=
  let started := viewModel.preparationElapsed.getD now
  let kept :=
    { viewModel with preparationElapsed := some started, completedPreparation := prepared }
  match prepared with
  | none => .ok ({ kept with preparationTimer := some kProgressUpdateInterval }, [])
  | some prepared =>
      if now - started < kMinimumProgressDisplayDuration then
        .ok ({ kept with
          preparationTimer := some (kMinimumProgressDisplayDuration - (now - started)) }, [])
      else kept.publish prepared

def pollPreparation (now : ℕ) : Emitted × σ :=
  if viewModel.directConfirmationOpen then (.ok (viewModel, []), shared)
  else
    let (prepared, shared) := viewModel.prepare callbacks answers shared
    (viewModel.polled now prepared, shared)

end Callbacks

def confirm : Emitted :=
  match viewModel.lifecycle.state with
  | .failureDecision =>
      if !viewModel.failureCanContinue then .ok (viewModel, [])
      else viewModel.post .confirm [.accepted]
  | .confirmation =>
      if !viewModel.advanceSet then viewModel.post .confirm [.accepted]
      else
        match viewModel.lifecycle.post .beginStaging with
        | .error thrown => .error thrown
        | .ok lifecycle =>
            .ok
              ({ viewModel with
                lifecycle := lifecycle
                stagingStarted := true
                displayedProgress := 0
                stepTimer := some 0 }, [.stagingBegan])
  | _ => .ok (viewModel, [])

def confirmDirect : Emitted :=
  if viewModel.lifecycle.state ≠ .preparing ∧ viewModel.lifecycle.state ≠ .confirmation then
    .ok (viewModel, [])
  else
    .ok
      ({ viewModel with preparationTimer := none, stepTimer := none, directSelected := true },
        [.accepted])

def beginDirectConfirmation : PowerDialogViewModel :=
  { viewModel with directConfirmationOpen := true, preparationTimer := none }

def cancelDirectConfirmation : PowerDialogViewModel :=
  if !viewModel.directConfirmationOpen then viewModel
  else
    { viewModel with
      directConfirmationOpen := false
      preparationTimer :=
        if viewModel.lifecycle.state = .preparing then some kProgressUpdateInterval
        else viewModel.preparationTimer }

/-- What `finish` posts while the lifecycle has not ended. -/
def closing (accepted : Bool) : PowerDialogState.Event :=
  if accepted && (viewModel.lifecycle.state ≠ .failureDecision || viewModel.failureCanContinue)
  then .confirm else .cancel

def finish (accepted : Bool) : Except Thrown PowerActionDialogOutcome :=
  if viewModel.directSelected then .ok .directConfirmed
  else
    let ended :=
      if viewModel.lifecycle.terminal then .ok viewModel.lifecycle
      else viewModel.lifecycle.post (viewModel.closing accepted)
    match ended with
    | .error thrown => .error thrown
    | .ok lifecycle =>
        match lifecycle.outcome with
        | .error thrown => .error thrown
        | .ok outcome =>
            if viewModel.request.mode = .direct ∧ outcome = .confirmed then .ok .directConfirmed
            else .ok outcome

end PowerDialogViewModel

/-! ## The window -/

/-- The controls of the dialog; `result` is set once it is closed, `true` for accepted. -/
structure PowerConfirmDialog where
  viewModel : PowerDialogViewModel
  actionEnabled : Bool
  directEnabled : Bool := true
  rejectionEnabled : Bool := true
  result : Option Bool := none

namespace PowerConfirmDialog

open PowerDialogViewModel

/-- The slots that `runPowerActionDialog` connects. -/
def receive (dialog : PowerConfirmDialog) : Signal → PowerConfirmDialog
  | .preparationReady => { dialog with actionEnabled := true }
  | .progressChanged _ => dialog
  | .stagingBegan =>
      { dialog with actionEnabled := false, directEnabled := false, rejectionEnabled := false }
  | .failureObserved _ =>
      { dialog with
        actionEnabled := dialog.viewModel.failureCanContinue
        directEnabled := false
        rejectionEnabled := true }
  | .accepted => { dialog with result := some true }

def emit (dialog : PowerConfirmDialog) (emitted : Emitted) : Except Thrown PowerConfirmDialog :=
  match emitted with
  | .error thrown => .error thrown
  | .ok (viewModel, signals) => .ok (signals.foldl receive { dialog with viewModel := viewModel })

/-- `runPowerActionDialog` up to `exec`, for a request that is not direct. -/
def opened (request : PowerActionDialogRequest) (preparation : Bool) :
    Except Thrown PowerConfirmDialog :=
  match construct request preparation with
  | .error thrown => .error thrown
  | .ok viewModel =>
      emit { viewModel := viewModel, actionEnabled := !preparation } viewModel.start

end PowerConfirmDialog

/-- What happens in the event loop of the dialog: a timer fires, or the user answers. -/
inductive PowerDialogInput (α : Type) where
  | preparationTimeout (now : ℕ) (answers : α)
  | stepTimeout (answers : α)
  | actionClicked
  | directClicked
  | directAnswered (confirmed : Bool)
  | rejected

/-- The dialog with what its callbacks share; an exception that leaves a slot ends it. -/
structure PowerDialogRun (σ : Type) where
  dialog : Except Thrown PowerConfirmDialog
  shared : σ

namespace PowerDialogRun

variable {σ α : Type}

/-- The question before a direct action is modal: the buttons behind it take no input
while it is open. -/
def answer (callbacks : PowerDialogCallbacks σ α) (dialog : PowerConfirmDialog) (shared : σ) :
    PowerDialogInput α → PowerDialogRun σ
  | .preparationTimeout now answers =>
      if dialog.viewModel.preparationTimer.isNone then ⟨.ok dialog, shared⟩
      else
        let fired := { dialog.viewModel with preparationTimer := none }
        let (emitted, shared) := fired.pollPreparation callbacks answers shared now
        ⟨dialog.emit emitted, shared⟩
  | .stepTimeout answers =>
      if dialog.viewModel.stepTimer.isNone then ⟨.ok dialog, shared⟩
      else
        let fired := { dialog.viewModel with stepTimer := none }
        let (emitted, shared) := fired.advanceStaging callbacks answers shared
        ⟨dialog.emit emitted, shared⟩
  | .actionClicked =>
      if dialog.actionEnabled && !dialog.viewModel.directConfirmationOpen then
        ⟨dialog.emit dialog.viewModel.confirm, shared⟩
      else ⟨.ok dialog, shared⟩
  | .directClicked =>
      if dialog.directEnabled && !dialog.viewModel.directConfirmationOpen then
        ⟨.ok { dialog with viewModel := dialog.viewModel.beginDirectConfirmation }, shared⟩
      else ⟨.ok dialog, shared⟩
  | .directAnswered confirmed =>
      if !dialog.viewModel.directConfirmationOpen then ⟨.ok dialog, shared⟩
      else if confirmed then ⟨dialog.emit dialog.viewModel.confirmDirect, shared⟩
      else ⟨.ok { dialog with viewModel := dialog.viewModel.cancelDirectConfirmation }, shared⟩
  | .rejected =>
      if dialog.rejectionEnabled && !dialog.viewModel.directConfirmationOpen then
        ⟨.ok { dialog with result := some false }, shared⟩
      else ⟨.ok dialog, shared⟩

/-- Nothing reaches a dialog that is closed. -/
def step (callbacks : PowerDialogCallbacks σ α) (run : PowerDialogRun σ)
    (input : PowerDialogInput α) : PowerDialogRun σ :=
  match run.dialog with
  | .error _ => run
  | .ok dialog =>
      if dialog.result.isSome then run else answer callbacks dialog run.shared input

def exec (callbacks : PowerDialogCallbacks σ α) (request : PowerActionDialogRequest)
    (preparation : Bool) (shared : σ) (inputs : List (PowerDialogInput α)) : PowerDialogRun σ :=
  inputs.foldl (step callbacks) ⟨PowerConfirmDialog.opened request preparation, shared⟩

end PowerDialogRun

end UwfManager
