import UwfManager.Power.DialogOutcomes
import UwfManager.Staging.StagingProgressRuns

/-!
# The dialog over a batch that another entry has finished

`executeWithCompletedStaging` shows the failure of the batch, or asks at once.  Its dialog
has nothing to poll and nothing to commit, so what the coordinator accepts afterwards
depends on the batch alone.
-/

namespace UwfManager

open PowerDialogViewModel PowerConfirmDialog

variable {σ α : Type} (callbacks : PowerDialogCallbacks σ α)

namespace FileStagingBatchResult

/-- The contract of callbacks that are not set: a batch is what it is. -/
def contract (result : FileStagingBatchResult) : PowerDialogContract callbacks where
  Polling _ := False
  Prepared _ := False
  Advancing _ := False
  Succeeded _ := result.command.outcome = .succeeded
  Recorded _ := result.command.outcome = .completedWithFailures ∧ result.command.failedFiles ≠ 0
  Stopped _ := True
  stopped_of_polling := fun _ => trivial
  stopped_of_prepared := fun _ => trivial
  stopped_of_succeeded := fun _ => trivial
  advancing_of_prepared := id
  poll_thrown := fun _ _ => trivial
  poll_pending := fun hpolling _ => hpolling
  poll_notRequired := fun hpolling _ => hpolling.elim
  poll_commit := fun hpolling _ => hpolling
  poll_failure := fun hpolling _ => hpolling.elim
  advance_thrown := fun _ _ => trivial
  advance_inProgress := fun hadvancing _ _ => hadvancing
  advance_completed := fun hadvancing _ _ => hadvancing.elim
  advance_failed := fun hadvancing _ _ => hadvancing.elim

variable {callbacks} {result : FileStagingBatchResult}

/-- The request of the dialog over a finished batch. -/
def request (result : FileStagingBatchResult) (action : PowerAction) :
    PowerActionDialogRequest where
  action := action
  completedStagingFailure := completedStagingFailure result

theorem canContinueAfter_completedStagingFailure {failure : PowerStagingFailure}
    (hfailure : completedStagingFailure result = some failure) :
    result.command.outcome ≠ .succeeded ∧ failure.result = result.result := by
  rw [completedStagingFailure] at hfailure
  by_cases houtcome : result.command.outcome ≠ .succeeded
  · rw [if_pos houtcome] at hfailure
    exact ⟨houtcome, by rw [← Option.some.inj hfailure]⟩
  · rw [if_neg houtcome] at hfailure
    exact absurd hfailure (Option.some_ne_none failure).symm

theorem kept_exec (hrecorded : result.FailuresRecorded) (action : PowerAction) (shared : σ)
    (inputs : List (PowerDialogInput α)) :
    Kept (result.contract callbacks)
      (PowerDialogRun.exec callbacks (result.request action) false shared inputs) := by
  refine kept_foldl ?_ inputs
  cases hfailure : completedStagingFailure result with
  | none =>
      have hsucceeded : result.command.outcome = .succeeded := by
        by_contra houtcome
        rw [completedStagingFailure, if_pos houtcome] at hfailure
        exact Option.some_ne_none _ hfailure
      exact kept_opened_succeeded rfl hfailure hsucceeded
  | some failure =>
      obtain ⟨houtcome, hresult⟩ := canContinueAfter_completedStagingFailure hfailure
      refine kept_opened_failure rfl hfailure trivial fun hcontinue => ?_
      rw [canContinueAfter, failureStatus, hresult, Option.any_eq_true] at hcontinue
      obtain ⟨commit, hcommit, hfailed⟩ := hcontinue
      exact hrecorded commit hcommit (by simpa using hfailed) houtcome

theorem checkContinuation_of_vouched {outcome : PowerActionDialogOutcome} {shared : σ}
    (hvouched : Vouched (result.contract callbacks) shared outcome)
    (hchecked : outcome = .confirmed ∨ outcome = .continuedAfterStagingFailure) :
    checkContinuation (some result.command) outcome = .ok () := by
  rcases hchecked with rfl | rfl
  · have houtcome : result.command.outcome = .succeeded := hvouched
    simp [checkContinuation, approveContinuation, requireFinalResult, houtcome]
  · obtain ⟨houtcome, hfailed⟩ : result.command.outcome = .completedWithFailures ∧
      result.command.failedFiles ≠ 0 := hvouched
    simp [checkContinuation, approveContinuation, requireFinalResult, houtcome, hfailed]

/-- The coordinator takes an outcome without a warning of its own. -/
def Taken (result : FileStagingBatchResult) (outcome : PowerActionDialogOutcome) : Prop :=
  ∀ (control : PreshutdownCommitControl) (lease : ℕ) (answers : PowerAnswers)
    (world : PowerWorld), (invokePowerAction control answers world.action).result = .ok () →
    (world.completedConfirmed control lease result (.ok outcome) answers).warnings =
      world.warnings

theorem taken_of_checked {outcome : PowerActionDialogOutcome}
    (hcheck : outcome = .confirmed ∨ outcome = .continuedAfterStagingFailure →
      checkContinuation (some result.command) outcome = .ok ()) : result.Taken outcome := by
  intro control lease answers world hpower
  have hclosed : ∀ (completeBatch : Bool) (called : PowerWorld),
      (called.closeCompleted lease result completeBatch).release.warnings = called.warnings :=
    fun _ _ => rfl
  have hinvoked : ∀ (failed : Thrown → PowerWorld → PowerWorld) (done : PowerWorld → PowerWorld),
      (∀ called : PowerWorld, (done called).warnings = called.warnings) →
      (world.invoke control outcome (.completed result) answers failed done).warnings =
        world.warnings := by
    intro failed done hdone
    rw [PowerWorld.invoke]
    split_ifs
    · rfl
    · rw [hpower]
      exact hdone _
  cases outcome with
  | canceled => rfl
  | canceledAfterStagingFailure => rfl
  | directConfirmed => exact hinvoked _ _ (hclosed true)
  | confirmed =>
      unfold PowerWorld.completedConfirmed
      simp only [hcheck (Or.inl rfl)]
      exact hinvoked _ _ (hclosed true)
  | continuedAfterStagingFailure =>
      unfold PowerWorld.completedConfirmed
      simp only [hcheck (Or.inr rfl)]
      exact hinvoked _ _ (hclosed true)

/-- The dialog of a failed batch once it is shown. -/
def shown (result : FileStagingBatchResult) (action : PowerAction)
    (failure : PowerStagingFailure) : PowerConfirmDialog where
  viewModel := PowerDialogViewModel.recordProgress
    { (fresh (result.request action) false).viewModel with
      failureCanContinue := canContinueAfter (failureStatus failure)
      lifecycle := { state := .failureDecision, failureObserved := true } }
    (failureStatus failure)
  actionEnabled := canContinueAfter (failureStatus failure)
  directEnabled := false

theorem opened_eq_shown {action : PowerAction} {failure : PowerStagingFailure}
    (hfailure : completedStagingFailure result = some failure) :
    opened (result.request action) false = .ok (result.shown action failure) := by
  have hstart : (fresh (result.request action) false).viewModel.start =
      (fresh (result.request action) false).viewModel.showFailure (failureStatus failure) := by
    rw [start, show (fresh (result.request action) false).viewModel.request.completedStagingFailure
      = some failure from hfailure]
  rw [opened_eq_emit rfl rfl, hstart]
  rfl

/-- The dialog of a failed batch, accepted at once. -/
def continued (result : FileStagingBatchResult) (action : PowerAction)
    (failure : PowerStagingFailure) : PowerConfirmDialog :=
  { result.shown action failure with
    viewModel :=
      { (result.shown action failure).viewModel with
        lifecycle := { state := .confirmed, failureObserved := true } }
    result := some true }

theorem exec_eq_continued {action : PowerAction} {failure : PowerStagingFailure} {shared : σ}
    (hfailure : completedStagingFailure result = some failure)
    (hcontinue : canContinueAfter (failureStatus failure) = true) :
    (PowerDialogRun.exec callbacks (result.request action) false shared
      [.actionClicked]).dialog = .ok (result.continued action failure) := by
  have hcan : (result.shown action failure).viewModel.failureCanContinue = true := hcontinue
  have henabled : (result.shown action failure).actionEnabled = true := hcontinue
  have hstate : (result.shown action failure).viewModel.lifecycle.state = .failureDecision := rfl
  have hasked : (result.shown action failure).viewModel.directConfirmationOpen = false := rfl
  rw [PowerDialogRun.exec, opened_eq_shown hfailure, List.foldl, List.foldl, PowerDialogRun.step]
  dsimp only
  rw [if_neg (show ¬(result.shown action failure).result.isSome = true from Bool.false_ne_true),
    PowerDialogRun.answer, henabled, hasked]
  simp only [Bool.not_false, Bool.and_true, if_true, confirm, hstate, hcan, Bool.not_true,
    Bool.false_eq_true, if_false]
  rfl

/-- A closed dialog over a batch that records its failures. -/
theorem taken_of_closed (hrecorded : result.FailuresRecorded) {action : PowerAction} {shared : σ}
    {inputs : List (PowerDialogInput α)} {dialog : PowerConfirmDialog} {accepted : Bool}
    (hdialog : (PowerDialogRun.exec callbacks (result.request action) false shared inputs).dialog =
      .ok dialog)
    (hclosed : dialog.result = some accepted) :
    ∃ outcome, dialog.viewModel.finish accepted = .ok outcome ∧ result.Taken outcome := by
  obtain ⟨kept, hkept, hsound⟩ := kept_exec hrecorded action shared inputs
  obtain rfl := Except.ok.inj (hdialog.symm.trans hkept)
  rw [Sound, hclosed] at hsound
  obtain ⟨outcome, hfinish, hvouched⟩ := hsound.outcome
  exact ⟨outcome, hfinish, taken_of_checked (checkContinuation_of_vouched hvouched)⟩

/-- Whatever the user answers, the dialog over a finished batch has an outcome that the
coordinator takes without a warning of its own: exactly for the batches whose failures were
recorded. -/
theorem completed_dialog_is_taken_iff (action : PowerAction) (shared : σ) :
    (∀ (inputs : List (PowerDialogInput α)) (dialog : PowerConfirmDialog) (accepted : Bool),
      (PowerDialogRun.exec callbacks (result.request action) false shared inputs).dialog =
        .ok dialog →
      dialog.result = some accepted →
      ∃ outcome, dialog.viewModel.finish accepted = .ok outcome ∧ result.Taken outcome) ↔
      result.FailuresRecorded := by
  constructor
  · intro htaken commit hcommit hfailed houtcome
    obtain ⟨failure, hfailure⟩ : ∃ failure, completedStagingFailure result = some failure :=
      ⟨_, by rw [completedStagingFailure, if_pos houtcome]⟩
    have hcontinue : canContinueAfter (failureStatus failure) = true := by
      rw [canContinueAfter, failureStatus,
        (canContinueAfter_completedStagingFailure hfailure).2, hcommit]
      simp [hfailed]
    obtain ⟨outcome, hfinish, houtcome⟩ :=
      htaken [.actionClicked] _ true (exec_eq_continued hfailure hcontinue) rfl
    have hfinished : (result.continued action failure).viewModel.finish true =
        .ok .continuedAfterStagingFailure := rfl
    obtain rfl := Except.ok.inj (hfinished.symm.trans hfinish)
    -- A batch without recorded failures is refused with a warning.
    have hquiet := houtcome {} 0 {} {} rfl
    by_contra hunrecorded
    have hrefused : result.command.outcome ≠ .completedWithFailures ∨
        result.command.failedFiles = 0 := by
      by_contra hrecorded
      obtain ⟨houtcome, hfailed⟩ := not_or.1 hrecorded
      exact hunrecorded ⟨not_not.1 houtcome, hfailed⟩
    unfold PowerWorld.completedConfirmed at hquiet
    simp only [checkContinuation, approveContinuation, hrefused, if_true] at hquiet
    exact List.cons_ne_nil _ _ hquiet
  · intro hrecorded inputs dialog accepted hdialog hclosed
    exact taken_of_closed hrecorded hdialog hclosed

/-- What the progress of a command batch hands to a waiting power action is always taken. -/
theorem completed_batch_is_taken (capability : UwfCapability) (now : ℕ)
    (steps : List FileStagingProgressViewModel.Input) (action : PowerAction) (shared : σ)
    (inputs : List (PowerDialogInput α)) {dialog : PowerConfirmDialog} {accepted : Bool}
    (hresult : result ∈ FileStagingProgressViewModel.completions
      (FileStagingProgressViewModel.run capability now steps).outputs)
    (hdialog : (PowerDialogRun.exec callbacks (result.request action) false shared inputs).dialog =
      .ok dialog)
    (hclosed : dialog.result = some accepted) :
    ∃ outcome, dialog.viewModel.finish accepted = .ok outcome ∧ result.Taken outcome := by
  have hrecorded : result.FailuresRecorded := by
    rcases FileStagingProgressViewModel.sound_run capability now steps with
      ⟨hdriving, -⟩ | ⟨batch, hclosing⟩ | ⟨batch, hended⟩
    · rw [hdriving.silent] at hresult
      exact absurd hresult (List.not_mem_nil)
    · rw [hclosing.silent] at hresult
      exact absurd hresult (List.not_mem_nil)
    · rw [hended.completed, List.mem_singleton] at hresult
      exact hresult ▸ hended.ends.failuresRecorded
  exact taken_of_closed hrecorded hdialog hclosed

end FileStagingBatchResult

end UwfManager
