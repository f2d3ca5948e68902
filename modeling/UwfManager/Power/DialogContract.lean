import UwfManager.Power.PowerDialogViewModel

/-!
# What the dialog asks of its callbacks, and what it gives back

A contract says in which situations the dialog may call the preparation and the commit,
and what their answers establish.  Callbacks that meet it are called in no other
situation, and a dialog that was accepted has ended in one the contract vouches for.
-/

namespace UwfManager

open PowerDialogViewModel

variable {σ α : Type}

/-- The situations of what the callbacks share: `Stopped` says that no commit runs. -/
structure PowerDialogContract (callbacks : PowerDialogCallbacks σ α) where
  Polling : σ → Prop
  Prepared : σ → Prop
  Advancing : σ → Prop
  Succeeded : σ → Prop
  Recorded : σ → Prop
  Stopped : σ → Prop
  stopped_of_polling {shared : σ} : Polling shared → Stopped shared
  stopped_of_prepared {shared : σ} : Prepared shared → Stopped shared
  stopped_of_succeeded {shared : σ} : Succeeded shared → Stopped shared
  advancing_of_prepared {shared : σ} : Prepared shared → Advancing shared
  poll_thrown {shared after : σ} {answers : α} {thrown : Thrown} : Polling shared →
    callbacks.poll answers shared = (.error thrown, after) → Stopped after
  poll_pending {shared after : σ} {answers : α} : Polling shared →
    callbacks.poll answers shared = (.ok none, after) → Polling after
  poll_notRequired {shared after : σ} {answers : α} : Polling shared →
    callbacks.poll answers shared = (.ok (some .notRequired), after) → Succeeded after
  poll_commit {shared after : σ} {answers : α} {filesToCommit : UInt64} : Polling shared →
    callbacks.poll answers shared = (.ok (some (.commit filesToCommit)), after) → Prepared after
  poll_failure {shared after : σ} {answers : α} {failure : PowerStagingFailure} :
    Polling shared → callbacks.poll answers shared = (.ok (some (.failure failure)), after) →
    Stopped after ∧ (canContinueAfter (failureStatus failure) = true → Recorded after)
  advance_thrown {shared after : σ} {answers : α} {thrown : Thrown} : Advancing shared →
    callbacks.advance answers shared = (.error thrown, after) → Stopped after
  advance_inProgress {shared after : σ} {answers : α} {status : PowerStagingProgress} :
    Advancing shared → callbacks.advance answers shared = (.ok status, after) →
    status.state = .inProgress → Advancing after
  advance_completed {shared after : σ} {answers : α} {status : PowerStagingProgress} :
    Advancing shared → callbacks.advance answers shared = (.ok status, after) →
    status.state = .completed → Succeeded after
  advance_failed {shared after : σ} {answers : α} {status : PowerStagingProgress} :
    Advancing shared → callbacks.advance answers shared = (.ok status, after) →
    status.state = .failed →
    Stopped after ∧ (canContinueAfter status = true → Recorded after)

/-! ## The situations of the dialog -/

namespace PowerConfirmDialog

variable {callbacks : PowerDialogCallbacks σ α} (contract : PowerDialogContract callbacks)

/-- What a prepared result, or that there is none yet, says about the callbacks. -/
def Told (shared : σ) : Option PowerStagingPreparation → Prop
  | none => contract.Polling shared
  | some .notRequired => contract.Succeeded shared
  | some (.commit _) => contract.Prepared shared
  | some (.failure failure) =>
      contract.Stopped shared ∧
        (canContinueAfter (failureStatus failure) = true → contract.Recorded shared)

structure Preparing (dialog : PowerConfirmDialog) (shared : σ) : Prop where
  lifecycle : dialog.viewModel.lifecycle = { state := .preparing }
  unselected : dialog.viewModel.directSelected = false
  poll : dialog.viewModel.pollSet = true
  unprepared : dialog.viewModel.advanceSet = false
  polls : dialog.viewModel.preparationTimer.isSome = !dialog.viewModel.directConfirmationOpen
  unstepped : dialog.viewModel.stepTimer = none
  action : dialog.actionEnabled = false
  rejection : dialog.rejectionEnabled = true
  told : Told contract shared dialog.viewModel.completedPreparation

structure Confirming (dialog : PowerConfirmDialog) (shared : σ) : Prop where
  lifecycle : dialog.viewModel.lifecycle = { state := .confirmation }
  unselected : dialog.viewModel.directSelected = false
  unpolled : dialog.viewModel.preparationTimer = none
  unstepped : dialog.viewModel.stepTimer = none
  action : dialog.actionEnabled = true
  rejection : dialog.rejectionEnabled = true
  prepared : dialog.viewModel.advanceSet = true → contract.Prepared shared
  succeeded : dialog.viewModel.advanceSet = false → contract.Succeeded shared

structure Committing (dialog : PowerConfirmDialog) (shared : σ) : Prop where
  lifecycle : dialog.viewModel.lifecycle = { state := .staging }
  unselected : dialog.viewModel.directSelected = false
  closed : dialog.viewModel.directConfirmationOpen = false
  advance : dialog.viewModel.advanceSet = true
  unpolled : dialog.viewModel.preparationTimer = none
  steps : dialog.viewModel.stepTimer.isSome = true
  action : dialog.actionEnabled = false
  direct : dialog.directEnabled = false
  rejection : dialog.rejectionEnabled = false
  advancing : contract.Advancing shared

structure Deciding (dialog : PowerConfirmDialog) (shared : σ) : Prop where
  lifecycle :
    dialog.viewModel.lifecycle = { state := .failureDecision, failureObserved := true }
  unselected : dialog.viewModel.directSelected = false
  closed : dialog.viewModel.directConfirmationOpen = false
  unpolled : dialog.viewModel.preparationTimer = none
  unstepped : dialog.viewModel.stepTimer = none
  action : dialog.actionEnabled = dialog.viewModel.failureCanContinue
  direct : dialog.directEnabled = false
  rejection : dialog.rejectionEnabled = true
  stopped : contract.Stopped shared
  recorded : dialog.viewModel.failureCanContinue = true → contract.Recorded shared

/-- The situation of an open dialog. -/
def Waiting (dialog : PowerConfirmDialog) (shared : σ) : Prop :=
  Preparing contract dialog shared ∨ Confirming contract dialog shared ∨
    Committing contract dialog shared ∨ Deciding contract dialog shared

/-- What an outcome other than a cancellation or a direct action rests on. -/
def Vouched (shared : σ) : PowerActionDialogOutcome → Prop
  | .confirmed => contract.Succeeded shared
  | .continuedAfterStagingFailure => contract.Recorded shared
  | _ => True

/-- The dialog is closed: its outcome is vouched for and no commit is left running. -/
structure Ended (dialog : PowerConfirmDialog) (shared : σ) (accepted : Bool) : Prop where
  outcome : ∃ outcome, dialog.viewModel.finish accepted = .ok outcome ∧
    Vouched contract shared outcome
  stopped : contract.Stopped shared

/-- What holds of the dialog and its callbacks at every moment. -/
def Sound (dialog : PowerConfirmDialog) (shared : σ) : Prop :=
  match dialog.result with
  | none => Waiting contract dialog shared
  | some accepted => Ended contract dialog shared accepted

end PowerConfirmDialog

end UwfManager
