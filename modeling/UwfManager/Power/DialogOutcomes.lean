import UwfManager.Power.DialogContract

/-!
# Every run of the dialog keeps its contract

A step of the event loop leads from one situation of the dialog to another, whatever the
user answers and whichever timer fires; no slot throws and no callback is called outside
its situation.
-/

namespace UwfManager

open PowerDialogViewModel

variable {σ α : Type} {callbacks : PowerDialogCallbacks σ α}
  {contract : PowerDialogContract callbacks}

namespace PowerConfirmDialog

variable {dialog : PowerConfirmDialog} {shared : σ}

/-- A result that was told leaves no commit running. -/
theorem stopped_of_told {prepared : Option PowerStagingPreparation}
    (htold : Told contract shared prepared) : contract.Stopped shared := by
  cases prepared with
  | none => exact contract.stopped_of_polling htold
  | some prepared =>
      cases prepared with
      | notRequired => exact contract.stopped_of_succeeded htold
      | commit filesToCommit => exact contract.stopped_of_prepared htold
      | failure failure => exact htold.1

/-- An open dialog may be closed by the user unless it commits. -/
theorem stopped_of_rejectable (hwaiting : Waiting contract dialog shared)
    (hrejection : dialog.rejectionEnabled = true) : contract.Stopped shared := by
  rcases hwaiting with hpreparing | hconfirming | hcommitting | hdeciding
  · exact stopped_of_told hpreparing.told
  · cases hset : dialog.viewModel.advanceSet with
    | true => exact contract.stopped_of_prepared (hconfirming.prepared hset)
    | false => exact contract.stopped_of_succeeded (hconfirming.succeeded hset)
  · rw [hcommitting.rejection] at hrejection
    exact absurd hrejection (by decide)
  · exact hdeciding.stopped

/-- A dialog that was rejected ends with a cancellation. -/
theorem ended_of_rejected (hwaiting : Waiting contract dialog shared)
    (hrejection : dialog.rejectionEnabled = true) :
    Ended contract { dialog with result := some false } shared false where
  stopped := stopped_of_rejectable hwaiting hrejection
  outcome := by
    rcases hwaiting with hpreparing | hconfirming | hcommitting | hdeciding
    · refine ⟨.canceled, ?_, trivial⟩
      simp [finish, hpreparing.unselected, hpreparing.lifecycle, closing,
        PowerDialogState.terminal, PowerDialogState.post, PowerDialogState.transitions,
        PowerDialogState.outcome]
    · refine ⟨.canceled, ?_, trivial⟩
      simp [finish, hconfirming.unselected, hconfirming.lifecycle, closing,
        PowerDialogState.terminal, PowerDialogState.post, PowerDialogState.transitions,
        PowerDialogState.outcome]
    · rw [hcommitting.rejection] at hrejection
      exact absurd hrejection (by decide)
    · refine ⟨.canceledAfterStagingFailure, ?_, trivial⟩
      simp [finish, hdeciding.unselected, hdeciding.lifecycle, closing,
        PowerDialogState.terminal, PowerDialogState.post, PowerDialogState.transitions,
        PowerDialogState.outcome]

/-- A dialog whose lifecycle was confirmed and that was accepted. -/
theorem ended_of_confirmed {observed : Bool}
    (hlifecycle : dialog.viewModel.lifecycle = { state := .confirmed, failureObserved := observed })
    (hunselected : dialog.viewModel.directSelected = false)
    (hsucceeded : observed = false → contract.Succeeded shared)
    (hrecorded : observed = true → contract.Recorded shared)
    (hstopped : contract.Stopped shared) : Ended contract dialog shared true where
  stopped := hstopped
  outcome := by
    by_cases hdirect : dialog.viewModel.request.mode = .direct ∧ observed = false
    · refine ⟨.directConfirmed, ?_, trivial⟩
      simp [finish, hunselected, hlifecycle, PowerDialogState.terminal,
        PowerDialogState.outcome, hdirect.1, hdirect.2]
    · cases observed with
      | true =>
          refine ⟨.continuedAfterStagingFailure, ?_, hrecorded rfl⟩
          simp [finish, hunselected, hlifecycle, PowerDialogState.terminal,
            PowerDialogState.outcome]
      | false =>
          refine ⟨.confirmed, ?_, hsucceeded rfl⟩
          have hsafe : dialog.viewModel.request.mode ≠ .direct :=
            fun hmode => hdirect ⟨hmode, rfl⟩
          simp [finish, hunselected, hlifecycle, PowerDialogState.terminal,
            PowerDialogState.outcome, hsafe]

/-- What one step of the event loop has to leave behind. -/
def Kept (contract : PowerDialogContract callbacks) (run : PowerDialogRun σ) : Prop :=
  ∃ dialog, run.dialog = .ok dialog ∧ Sound contract dialog run.shared

theorem kept_of_waiting (hopen : dialog.result = none)
    (hwaiting : Waiting contract dialog shared) : Kept contract ⟨.ok dialog, shared⟩ := by
  refine ⟨dialog, rfl, ?_⟩
  rw [Sound, hopen]
  exact hwaiting

/-! ## Failures -/

/-- A failure that is shown leads to the decision of the user. -/
theorem kept_showFailure (contract : PowerDialogContract callbacks)
    (dialog : PowerConfirmDialog) (viewModel : PowerDialogViewModel)
    (status : PowerStagingProgress) {state : PowerDialogState.State} {signals : List Signal}
    (hopen : dialog.result = none)
    (hlifecycle : viewModel.lifecycle = { state := state })
    (hobserves : PowerDialogState.transitions state .failureObserved = some .failureDecision)
    (hunselected : viewModel.directSelected = false)
    (hclosed : viewModel.directConfirmationOpen = false)
    (hsignals : signals = [] ∨ signals = [.progressChanged status])
    (hstopped : contract.Stopped shared)
    (hrecorded : canContinueAfter status = true → contract.Recorded shared) :
    ∃ failed, viewModel.showFailure status = .ok (failed, [.failureObserved status]) ∧
      Kept contract
        ⟨dialog.emit (.ok (failed, signals ++ [.failureObserved status])), shared⟩ := by
  have hpost : viewModel.lifecycle.post .failureObserved =
      .ok { state := .failureDecision, failureObserved := true } := by
    simp [PowerDialogState.post, hlifecycle, hobserves]
  rw [showFailure]
  simp only [hpost]
  refine ⟨_, rfl, ?_⟩
  refine ⟨_, rfl, ?_⟩
  have hdeciding : ∀ after : PowerConfirmDialog, after =
      { dialog with
        viewModel := PowerDialogViewModel.recordProgress
          { viewModel with
            preparationTimer := none
            stepTimer := none
            failureCanContinue := canContinueAfter status
            lifecycle := { state := .failureDecision, failureObserved := true } } status
        actionEnabled := canContinueAfter status
        directEnabled := false
        rejectionEnabled := true } → Sound contract after shared := by
    rintro after rfl
    rw [Sound, hopen]
    exact Or.inr (Or.inr (Or.inr
      { lifecycle := rfl
        unselected := hunselected
        closed := hclosed
        unpolled := rfl
        unstepped := rfl
        action := rfl
        direct := rfl
        rejection := rfl
        stopped := hstopped
        recorded := hrecorded }))
  apply hdeciding
  rcases hsignals with rfl | rfl
  · rfl
  · rfl

/-! ## The preparation -/

/-- The result that a poll tells, whether it was kept or is asked for now. -/
theorem told_prepare (viewModel : PowerDialogViewModel) (hpoll : viewModel.pollSet = true)
    (htold : Told contract shared viewModel.completedPreparation) (answers : α) :
    Told contract (viewModel.prepare callbacks answers shared).2
      (viewModel.prepare callbacks answers shared).1 := by
  cases hkept : viewModel.completedPreparation with
  | some prepared =>
      rw [hkept] at htold
      simp only [prepare, hkept]
      exact htold
  | none =>
      rw [hkept] at htold
      have hpolling : contract.Polling shared := htold
      simp only [prepare, hkept, hpoll, if_true]
      rcases hanswer : callbacks.poll answers shared with ⟨answer, after⟩
      cases answer with
      | error thrown =>
          exact ⟨contract.poll_thrown hpolling hanswer,
            fun hcontinue => absurd hcontinue Bool.false_ne_true⟩
      | ok prepared =>
          rcases prepared with _ | prepared
          · exact contract.poll_pending hpolling hanswer
          · cases prepared with
            | notRequired => exact contract.poll_notRequired hpolling hanswer
            | commit filesToCommit => exact contract.poll_commit hpolling hanswer
            | failure failure => exact contract.poll_failure hpolling hanswer

theorem kept_publish {viewModel : PowerDialogViewModel} {prepared : PowerStagingPreparation}
    (hopen : dialog.result = none) (hlifecycle : viewModel.lifecycle = { state := .preparing })
    (hunselected : viewModel.directSelected = false)
    (hclosed : viewModel.directConfirmationOpen = false)
    (hunprepared : viewModel.advanceSet = false) (hunpolled : viewModel.preparationTimer = none)
    (hunstepped : viewModel.stepTimer = none) (hrejection : dialog.rejectionEnabled = true)
    (htold : Told contract shared (some prepared)) :
    Kept contract ⟨dialog.emit (viewModel.publish prepared), shared⟩ := by
  cases prepared with
  | failure failure =>
      obtain ⟨failed, hfailed, hkept⟩ := kept_showFailure contract dialog
        { viewModel with pollSet := false, completedPreparation := none }
        (failureStatus failure) hopen hlifecycle rfl hunselected hclosed (Or.inl rfl) htold.1
        htold.2
      rw [publish, hfailed]
      exact hkept
  | commit filesToCommit =>
      refine ⟨_, by simp only [publish, PowerDialogViewModel.post, hlifecycle]; rfl, ?_⟩
      rw [Sound]
      simp only [List.foldl, receive, hopen]
      exact Or.inr (Or.inl
        { lifecycle := rfl
          unselected := hunselected
          unpolled := hunpolled
          unstepped := hunstepped
          action := rfl
          rejection := hrejection
          prepared := fun _ => htold
          succeeded := fun hset => absurd hset (by simp) })
  | notRequired =>
      refine ⟨_, by simp only [publish, PowerDialogViewModel.post, hlifecycle]; rfl, ?_⟩
      rw [Sound]
      simp only [List.foldl, receive, hopen]
      exact Or.inr (Or.inl
        { lifecycle := rfl
          unselected := hunselected
          unpolled := hunpolled
          unstepped := hunstepped
          action := rfl
          rejection := hrejection
          prepared := fun hset => absurd (hunprepared.symm.trans hset) (by decide)
          succeeded := fun _ => htold })

theorem kept_polled {viewModel : PowerDialogViewModel} {now : ℕ}
    {prepared : Option PowerStagingPreparation}
    (hopen : dialog.result = none) (hlifecycle : viewModel.lifecycle = { state := .preparing })
    (hunselected : viewModel.directSelected = false) (hpoll : viewModel.pollSet = true)
    (hclosed : viewModel.directConfirmationOpen = false)
    (hunprepared : viewModel.advanceSet = false) (hunpolled : viewModel.preparationTimer = none)
    (hunstepped : viewModel.stepTimer = none) (haction : dialog.actionEnabled = false)
    (hrejection : dialog.rejectionEnabled = true) (htold : Told contract shared prepared) :
    Kept contract ⟨dialog.emit (viewModel.polled now prepared), shared⟩ := by
  -- The timer is started again, with the result kept for its next shot.
  have hagain : ∀ (interval started : ℕ),
      Kept contract ⟨dialog.emit (.ok
        ({ viewModel with
          preparationElapsed := some started
          completedPreparation := prepared
          preparationTimer := some interval }, [])), shared⟩ := by
    intro interval started
    refine kept_of_waiting hopen (Or.inl ?_)
    exact
      { lifecycle := hlifecycle
        unselected := hunselected
        poll := hpoll
        unprepared := hunprepared
        polls := by simp [hclosed]
        unstepped := hunstepped
        action := haction
        rejection := hrejection
        told := htold }
  cases prepared with
  | none =>
      rw [polled]
      exact hagain _ _
  | some prepared =>
      rw [polled]
      dsimp only
      split_ifs
      · exact hagain _ _
      · exact kept_publish hopen hlifecycle hunselected hclosed hunprepared hunpolled hunstepped
          hrejection htold

theorem kept_preparationTimeout (hopen : dialog.result = none)
    (hwaiting : Waiting contract dialog shared) (now : ℕ) (answers : α) :
    Kept contract (PowerDialogRun.answer callbacks dialog shared
      (.preparationTimeout now answers)) := by
  rw [PowerDialogRun.answer]
  cases htimer : dialog.viewModel.preparationTimer with
  | none => exact kept_of_waiting hopen hwaiting
  | some interval =>
      rcases hwaiting with hpreparing | hconfirming | hcommitting | hdeciding
      · have hclosed : dialog.viewModel.directConfirmationOpen = false := by
          have hpolls := hpreparing.polls
          rw [htimer] at hpolls
          simpa using hpolls.symm
        simp only [Option.isNone_some, Bool.false_eq_true, if_false, pollPreparation, hclosed]
        exact kept_polled hopen hpreparing.lifecycle hpreparing.unselected hpreparing.poll rfl
          hpreparing.unprepared rfl hpreparing.unstepped hpreparing.action hpreparing.rejection
          (told_prepare { dialog.viewModel with preparationTimer := none }
            hpreparing.poll hpreparing.told answers)
      · exact absurd (htimer.symm.trans hconfirming.unpolled) (Option.some_ne_none interval)
      · exact absurd (htimer.symm.trans hcommitting.unpolled) (Option.some_ne_none interval)
      · exact absurd (htimer.symm.trans hdeciding.unpolled) (Option.some_ne_none interval)

/-! ## The commit -/

/-- The status of a step, also of one whose callback threw, tells where the commit is. -/
structure Reached (contract : PowerDialogContract callbacks) (shared : σ)
    (status : PowerStagingProgress) : Prop where
  inProgress : status.state = .inProgress → contract.Advancing shared
  completed : status.state = .completed → contract.Succeeded shared
  failed : status.state = .failed → contract.Stopped shared ∧
    (canContinueAfter status = true → contract.Recorded shared)

theorem kept_stepped {viewModel : PowerDialogViewModel} {status : PowerStagingProgress}
    (hopen : dialog.result = none) (hlifecycle : viewModel.lifecycle = { state := .staging })
    (hunselected : viewModel.directSelected = false)
    (hclosed : viewModel.directConfirmationOpen = false) (hadvance : viewModel.advanceSet = true)
    (hunpolled : viewModel.preparationTimer = none) (haction : dialog.actionEnabled = false)
    (hdirect : dialog.directEnabled = false) (hrejection : dialog.rejectionEnabled = false)
    (hreached : Reached contract shared status) :
    Kept contract ⟨dialog.emit (viewModel.stepped status), shared⟩ := by
  have hrecorded : (viewModel.recordProgress status).lifecycle = { state := .staging } :=
    hlifecycle
  have hterminal : (viewModel.recordProgress status).lifecycle.terminal = false := by
    rw [hrecorded]
    rfl
  rw [stepped]
  simp only [hterminal, Bool.false_eq_true, if_false]
  cases hstate : status.state with
  | inProgress =>
      refine kept_of_waiting hopen (Or.inr (Or.inr (Or.inl ?_)))
      exact
        { lifecycle := hlifecycle
          unselected := hunselected
          closed := hclosed
          advance := hadvance
          unpolled := hunpolled
          steps := rfl
          action := haction
          direct := hdirect
          rejection := hrejection
          advancing := hreached.inProgress hstate }
  | completed =>
      have hsucceeded := hreached.completed hstate
      refine ⟨_, by simp only [PowerDialogViewModel.post, hrecorded]; rfl, ?_⟩
      rw [Sound]
      exact ended_of_confirmed rfl hunselected (fun _ => hsucceeded)
        (fun hobserved => absurd hobserved (by decide))
        (contract.stopped_of_succeeded hsucceeded)
  | failed =>
      obtain ⟨failed, hfailed, hkept⟩ := kept_showFailure contract dialog
        (viewModel.recordProgress status) status hopen hrecorded rfl hunselected hclosed
        (Or.inr rfl) (hreached.failed hstate).1
        (hreached.failed hstate).2
      rw [hfailed]
      exact hkept

theorem kept_stepTimeout (hopen : dialog.result = none)
    (hwaiting : Waiting contract dialog shared) (answers : α) :
    Kept contract (PowerDialogRun.answer callbacks dialog shared (.stepTimeout answers)) := by
  rw [PowerDialogRun.answer]
  cases htimer : dialog.viewModel.stepTimer with
  | none => exact kept_of_waiting hopen hwaiting
  | some interval =>
      rcases hwaiting with hpreparing | hconfirming | hcommitting | hdeciding
      · exact absurd (htimer.symm.trans hpreparing.unstepped) (Option.some_ne_none interval)
      · exact absurd (htimer.symm.trans hconfirming.unstepped) (Option.some_ne_none interval)
      · simp only [Option.isNone_some, Bool.false_eq_true, if_false, advanceStaging,
          hcommitting.advance, if_true]
        rcases hanswer : callbacks.advance answers shared with ⟨answer, after⟩
        cases answer with
        | error thrown =>
            exact kept_stepped hopen hcommitting.lifecycle hcommitting.unselected
              hcommitting.closed rfl hcommitting.unpolled hcommitting.action
              hcommitting.direct hcommitting.rejection
              { inProgress := fun hstate => absurd hstate (by simp [failedStep])
                completed := fun hstate => absurd hstate (by simp [failedStep])
                failed := fun _ =>
                  ⟨contract.advance_thrown hcommitting.advancing hanswer,
                    fun hcontinue => absurd hcontinue (by simp [failedStep, canContinueAfter])⟩ }
        | ok status =>
            exact kept_stepped hopen hcommitting.lifecycle hcommitting.unselected
              hcommitting.closed rfl hcommitting.unpolled hcommitting.action
              hcommitting.direct hcommitting.rejection
              { inProgress := fun hstate =>
                  contract.advance_inProgress hcommitting.advancing hanswer hstate
                completed := fun hstate =>
                  contract.advance_completed hcommitting.advancing hanswer hstate
                failed := fun hstate =>
                  contract.advance_failed hcommitting.advancing hanswer hstate }
      · exact absurd (htimer.symm.trans hdeciding.unstepped) (Option.some_ne_none interval)

/-! ## The user -/

/-- The action button begins the commit, or accepts the dialog. -/
theorem kept_confirm (hopen : dialog.result = none) (hwaiting : Waiting contract dialog shared)
    (haction : dialog.actionEnabled = true)
    (hclosed : dialog.viewModel.directConfirmationOpen = false) :
    Kept contract ⟨dialog.emit dialog.viewModel.confirm, shared⟩ := by
  rcases hwaiting with hpreparing | hconfirming | hcommitting | hdeciding
  · rw [hpreparing.action] at haction
    exact absurd haction (by decide)
  · have hstate : dialog.viewModel.lifecycle.state = .confirmation := by
      rw [hconfirming.lifecycle]
    rw [confirm]
    simp only [hstate]
    cases hset : dialog.viewModel.advanceSet with
    | false =>
        have hsucceeded := hconfirming.succeeded hset
        refine ⟨_, by simp only [PowerDialogViewModel.post, hconfirming.lifecycle]; rfl, ?_⟩
        rw [Sound]
        exact ended_of_confirmed rfl hconfirming.unselected (fun _ => hsucceeded)
          (fun hobserved => absurd hobserved (by decide))
          (contract.stopped_of_succeeded hsucceeded)
    | true =>
        refine ⟨_, by simp only [hconfirming.lifecycle]; rfl, ?_⟩
        rw [Sound]
        simp only [List.foldl, receive, hopen]
        exact Or.inr (Or.inr (Or.inl
          { lifecycle := rfl
            unselected := hconfirming.unselected
            closed := hclosed
            advance := rfl
            unpolled := hconfirming.unpolled
            steps := rfl
            action := rfl
            direct := rfl
            rejection := rfl
            advancing := contract.advancing_of_prepared (hconfirming.prepared hset) }))
  · rw [hcommitting.action] at haction
    exact absurd haction (by decide)
  · have hstate : dialog.viewModel.lifecycle.state = .failureDecision := by
      rw [hdeciding.lifecycle]
    have hcontinue : dialog.viewModel.failureCanContinue = true := hdeciding.action ▸ haction
    rw [confirm]
    simp only [hstate, hcontinue, Bool.not_true, Bool.false_eq_true, if_false]
    refine ⟨_, by simp only [PowerDialogViewModel.post, hdeciding.lifecycle]; rfl, ?_⟩
    rw [Sound]
    exact ended_of_confirmed rfl hdeciding.unselected
      (fun hobserved => absurd hobserved (by decide)) (fun _ => hdeciding.recorded hcontinue)
      hdeciding.stopped

/-- The question before a direct action stops the polling and is answered later. -/
theorem kept_directClicked (hopen : dialog.result = none)
    (hwaiting : Waiting contract dialog shared) (hdirect : dialog.directEnabled = true) :
    Kept contract
      ⟨.ok { dialog with viewModel := dialog.viewModel.beginDirectConfirmation }, shared⟩ := by
  refine kept_of_waiting hopen ?_
  rcases hwaiting with hpreparing | hconfirming | hcommitting | hdeciding
  · exact Or.inl { hpreparing with polls := rfl }
  · exact Or.inr (Or.inl { hconfirming with unpolled := rfl })
  · rw [hcommitting.direct] at hdirect
    exact absurd hdirect (by decide)
  · rw [hdeciding.direct] at hdirect
    exact absurd hdirect (by decide)

theorem kept_directConfirmed (hwaiting : Waiting contract dialog shared)
    (hasked : dialog.viewModel.directConfirmationOpen = true) :
    Kept contract ⟨dialog.emit dialog.viewModel.confirmDirect, shared⟩ := by
  -- A question is open only while the dialog may be closed without a commit running.
  have hdecided : (dialog.viewModel.lifecycle.state = .preparing ∨
      dialog.viewModel.lifecycle.state = .confirmation) ∧ contract.Stopped shared := by
    have hstopped := stopped_of_rejectable hwaiting
    rcases hwaiting with hpreparing | hconfirming | hcommitting | hdeciding
    · exact ⟨Or.inl (by rw [hpreparing.lifecycle]), hstopped hpreparing.rejection⟩
    · exact ⟨Or.inr (by rw [hconfirming.lifecycle]), hstopped hconfirming.rejection⟩
    · rw [hcommitting.closed] at hasked
      exact absurd hasked (by decide)
    · rw [hdeciding.closed] at hasked
      exact absurd hasked (by decide)
  obtain ⟨hstate, hstopped⟩ := hdecided
  have hpassed : ¬(dialog.viewModel.lifecycle.state ≠ .preparing ∧
      dialog.viewModel.lifecycle.state ≠ .confirmation) := by
    rcases hstate with hstate | hstate
    · exact fun hneither => hneither.1 hstate
    · exact fun hneither => hneither.2 hstate
  rw [confirmDirect, if_neg hpassed]
  refine ⟨_, rfl, ?_⟩
  rw [Sound]
  exact
    { outcome := ⟨.directConfirmed, rfl, trivial⟩
      stopped := hstopped }

theorem kept_directDeclined (hopen : dialog.result = none)
    (hwaiting : Waiting contract dialog shared)
    (hasked : dialog.viewModel.directConfirmationOpen = true) :
    Kept contract
      ⟨.ok { dialog with viewModel := dialog.viewModel.cancelDirectConfirmation }, shared⟩ := by
  refine kept_of_waiting hopen ?_
  simp only [cancelDirectConfirmation, hasked, Bool.not_true, Bool.false_eq_true, if_false]
  rcases hwaiting with hpreparing | hconfirming | hcommitting | hdeciding
  · have hstate : dialog.viewModel.lifecycle.state = .preparing := by rw [hpreparing.lifecycle]
    exact Or.inl { hpreparing with polls := by simp [hstate] }
  · have hstate : dialog.viewModel.lifecycle.state ≠ .preparing := by
      rw [hconfirming.lifecycle]
      decide
    exact Or.inr (Or.inl
      { hconfirming with unpolled := by simp [hstate, hconfirming.unpolled] })
  · rw [hcommitting.closed] at hasked
    exact absurd hasked (by decide)
  · rw [hdeciding.closed] at hasked
    exact absurd hasked (by decide)

/-! ## Runs -/

theorem kept_answer (hopen : dialog.result = none) (hwaiting : Waiting contract dialog shared)
    (input : PowerDialogInput α) :
    Kept contract (PowerDialogRun.answer callbacks dialog shared input) := by
  have hsame := kept_of_waiting hopen hwaiting
  cases input with
  | preparationTimeout now answers => exact kept_preparationTimeout hopen hwaiting now answers
  | stepTimeout answers => exact kept_stepTimeout hopen hwaiting answers
  | actionClicked =>
      rw [PowerDialogRun.answer]
      split_ifs with hclicked
      · rw [Bool.and_eq_true, Bool.not_eq_true'] at hclicked
        exact kept_confirm hopen hwaiting hclicked.1 hclicked.2
      · exact hsame
  | directClicked =>
      rw [PowerDialogRun.answer]
      split_ifs with hclicked
      · rw [Bool.and_eq_true] at hclicked
        exact kept_directClicked hopen hwaiting hclicked.1
      · exact hsame
  | directAnswered confirmed =>
      rw [PowerDialogRun.answer]
      split_ifs with hclosed hconfirmed
      · exact hsame
      · exact kept_directConfirmed hwaiting (by simpa using hclosed)
      · exact kept_directDeclined hopen hwaiting (by simpa using hclosed)
  | rejected =>
      rw [PowerDialogRun.answer]
      split_ifs with hrejected
      · rw [Bool.and_eq_true] at hrejected
        exact ⟨_, rfl, ended_of_rejected hwaiting hrejected.1⟩
      · exact hsame

theorem kept_step {run : PowerDialogRun σ} (hkept : Kept contract run)
    (input : PowerDialogInput α) : Kept contract (run.step callbacks input) := by
  obtain ⟨dialog, hdialog, hsound⟩ := hkept
  rw [PowerDialogRun.step]
  simp only [hdialog]
  rw [Sound] at hsound
  cases hresult : dialog.result with
  | some accepted =>
      rw [hresult] at hsound
      refine ⟨dialog, hdialog, ?_⟩
      rw [Sound, hresult]
      exact hsound
  | none =>
      rw [hresult] at hsound
      exact kept_answer hresult hsound input

theorem kept_foldl {run : PowerDialogRun σ} (hkept : Kept contract run)
    (inputs : List (PowerDialogInput α)) :
    Kept contract (inputs.foldl (PowerDialogRun.step callbacks) run) := by
  induction inputs generalizing run with
  | nil => exact hkept
  | cons input rest ih => exact ih (kept_step hkept input)

/-- The dialog of a request that is not direct, before its first event. -/
def fresh (request : PowerActionDialogRequest) (preparation : Bool) : PowerConfirmDialog where
  viewModel :=
    { request := request
      pollSet := preparation
      preparationRequired := preparation
      lifecycle := { state := if preparation then .preparing else .confirmation } }
  actionEnabled := !preparation

theorem opened_eq_emit {request : PowerActionDialogRequest} {preparation : Bool}
    (hsafe : request.mode = .safe)
    (hone : (preparation && request.completedStagingFailure.isSome) = false) :
    opened request preparation =
      (fresh request preparation).emit (fresh request preparation).viewModel.start := by
  have hconstruct : construct request preparation = .ok (fresh request preparation).viewModel := by
    rw [construct, if_neg (by rw [hone]; decide), if_neg (by rw [hsafe]; simp)]
    rfl
  rw [opened, hconstruct]
  rfl

/-- A request that prepares: its callbacks may be polled from the start. -/
theorem kept_opened {request : PowerActionDialogRequest}
    (hsafe : request.mode = .safe) (hfresh : request.completedStagingFailure = none)
    (hpolling : contract.Polling shared) :
    Kept contract ⟨opened request true, shared⟩ := by
  have hstart : (fresh request true).viewModel.start =
      .ok ({ (fresh request true).viewModel with
        preparationTimer := some kProgressUpdateInterval }, []) := by
    simp only [start, fresh, hfresh]
    rfl
  rw [opened_eq_emit hsafe (by rw [hfresh]; rfl), hstart]
  refine kept_of_waiting rfl (Or.inl ?_)
  exact
    { lifecycle := rfl
      unselected := rfl
      poll := rfl
      unprepared := rfl
      polls := rfl
      unstepped := rfl
      action := rfl
      rejection := rfl
      told := hpolling }

/-- A request that shows the failure of an earlier batch. -/
theorem kept_opened_failure {request : PowerActionDialogRequest} {failure : PowerStagingFailure}
    (hsafe : request.mode = .safe) (hfailure : request.completedStagingFailure = some failure)
    (hstopped : contract.Stopped shared)
    (hrecorded : canContinueAfter (failureStatus failure) = true → contract.Recorded shared) :
    Kept contract ⟨opened request false, shared⟩ := by
  obtain ⟨failed, hfailed, hkept⟩ := kept_showFailure contract (fresh request false)
    (fresh request false).viewModel
    (failureStatus failure) rfl rfl rfl rfl rfl (Or.inl rfl) hstopped hrecorded
  have hstart : (fresh request false).viewModel.start =
      .ok (failed, [.failureObserved (failureStatus failure)]) := by
    rw [start, show (fresh request false).viewModel.request = request from rfl, hfailure]
    exact hfailed
  rw [opened_eq_emit hsafe rfl, hstart]
  exact hkept

/-- A request with nothing left to prepare. -/
theorem kept_opened_succeeded {request : PowerActionDialogRequest}
    (hsafe : request.mode = .safe) (hnone : request.completedStagingFailure = none)
    (hsucceeded : contract.Succeeded shared) :
    Kept contract ⟨opened request false, shared⟩ := by
  have hstart : (fresh request false).viewModel.start =
      .ok ((fresh request false).viewModel, []) := by
    simp only [start, fresh, hnone]
    rfl
  rw [opened_eq_emit hsafe rfl, hstart]
  refine kept_of_waiting rfl (Or.inr (Or.inl ?_))
  exact
    { lifecycle := rfl
      unselected := rfl
      unpolled := rfl
      unstepped := rfl
      action := rfl
      rejection := rfl
      prepared := fun hset => absurd hset Bool.false_ne_true
      succeeded := fun _ => hsucceeded }

/-- Which timer runs and which button is enabled, by the state of the lifecycle. -/
structure Awaits (dialog : PowerConfirmDialog) : Prop where
  preparation : dialog.viewModel.preparationTimer.isSome = true ↔
    dialog.viewModel.lifecycle.state = .preparing ∧
      dialog.viewModel.directConfirmationOpen = false
  step : dialog.viewModel.stepTimer.isSome = true ↔ dialog.viewModel.lifecycle.state = .staging
  rejection : dialog.rejectionEnabled = true ↔ dialog.viewModel.lifecycle.state ≠ .staging
  action : dialog.actionEnabled = true ↔ dialog.viewModel.lifecycle.state = .confirmation ∨
    dialog.viewModel.lifecycle.state = .failureDecision ∧
      dialog.viewModel.failureCanContinue = true

theorem awaits_of_waiting (hwaiting : Waiting contract dialog shared) : Awaits dialog := by
  rcases hwaiting with hpreparing | hconfirming | hcommitting | hdeciding
  · constructor <;>
      simp [hpreparing.lifecycle, hpreparing.polls, hpreparing.unstepped, hpreparing.action,
        hpreparing.rejection]
  · constructor <;>
      simp [hconfirming.lifecycle, hconfirming.unpolled, hconfirming.unstepped,
        hconfirming.action, hconfirming.rejection]
  · constructor <;>
      simp [hcommitting.lifecycle, hcommitting.unpolled, hcommitting.steps, hcommitting.action,
        hcommitting.rejection]
  · constructor <;>
      simp [hdeciding.lifecycle, hdeciding.unpolled, hdeciding.unstepped, hdeciding.action,
        hdeciding.rejection]

end PowerConfirmDialog

namespace PowerDialogRun

open PowerConfirmDialog

variable {request : PowerActionDialogRequest} {shared : σ}

/-- In every run no slot throws, and the dialog waits in one of its situations until it has
ended with an outcome that the contract vouches for. -/
theorem sound_exec (contract : PowerDialogContract callbacks) (hsafe : request.mode = .safe)
    (hfresh : request.completedStagingFailure = none) (hpolling : contract.Polling shared)
    (inputs : List (PowerDialogInput α)) :
    Kept contract (exec callbacks request true shared inputs) :=
  kept_foldl (kept_opened hsafe hfresh hpolling) inputs

end PowerDialogRun

end UwfManager
