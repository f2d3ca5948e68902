import UwfManager.Staging.FileStagingProgressViewModel

/-!
# Every batch completes once, with what its task has done

From its start on the view model waits for its timer, then for the single shot, until the
batch is completed; the batch it completes says what the task has recorded.
-/

namespace UwfManager

namespace FileStagingCommitResult

variable {result : FileStagingCommitResult}

/-- A failure count that is not zero stays so. -/
theorem Countable.failedFiles_ne_zero (hcountable : result.Countable)
    (hfailed : result.succeeded = false) (detail : Text) :
    (toApplicationCommandResult result detail).failedFiles ≠ 0 := by
  intro hzero
  have hcount : (toApplicationCommandResult result detail).failedFiles.toNat = 0 := by
    rw [hzero]
    rfl
  rw [toApplicationCommandResult] at hcount
  rw [UInt64.toNat_ofNat_of_lt' hcountable, List.length_eq_zero_iff] at hcount
  rw [succeeded, hcount] at hfailed
  exact absurd hfailed (by decide)

end FileStagingCommitResult

/-- A result with failures is one whose command has recorded them, unless it succeeded. -/
def FileStagingBatchResult.FailuresRecorded (result : FileStagingBatchResult) : Prop :=
  ∀ commit, result.result = some commit → commit.succeeded = false →
    result.command.outcome ≠ .succeeded →
    result.command.outcome = .completedWithFailures ∧ result.command.failedFiles ≠ 0

/-- The batch of a task: its list, and its result or the failure that ended it. -/
structure StoredStagingTask.Ends (stored : StoredStagingTask) (batch : FileStagingBatchResult) :
    Prop where
  entries : batch.sourceEntries = stored.sourceEntries
  result : (∃ result detail, stored.task.Done result ∧ batch.result = some result ∧
      batch.command = toApplicationCommandResult result detail) ∨
    batch.result = none ∧ ∃ detail, batch.command = .infrastructureFailure detail

theorem StoredStagingTask.Ends.failuresRecorded {stored : StoredStagingTask}
    {batch : FileStagingBatchResult} (hends : stored.Ends batch) : batch.FailuresRecorded := by
  intro commit hcommit hfailed _
  rcases hends.result with ⟨result, detail, hdone, hresult, hcommand⟩ | ⟨hnone, -⟩
  · obtain rfl := Option.some.inj (hresult.symm.trans hcommit)
    rw [hcommand]
    exact ⟨by simp [toApplicationCommandResult, hfailed],
      hdone.countable.failedFiles_ne_zero hfailed detail⟩
  · exact absurd (hnone.symm.trans hcommit) (Option.some_ne_none commit).symm

/-! ## The task -/

namespace FileStagingTask

/-- A task that has not failed so far, or is done. -/
def Live (task : FileStagingTask) : Prop :=
  task.failure = none ∧ task.state ≠ .completed ∨ ∃ result, task.Done result

variable {task : FileStagingTask}

theorem Live.unfailed (hlive : task.Live) (hstate : task.state ≠ .completed) :
    task.failure = none := by
  rcases hlive with ⟨hfailure, -⟩ | ⟨result, hdone⟩
  · exact hfailure
  · exact absurd hdone.completed hstate

/-- A poll of a task that is not prepared yet fails, or leaves a live task. -/
theorem live_pollPreparation (task : FileStagingTask) (hfailure : task.failure = none)
    (hunprepared : task.preparationFinished = false) {work : PreparationWork}
    (hcountable : work.Countable) :
    (∃ thrown, (task.pollPreparation work).1 = .error thrown) ∨
      (task.pollPreparation work).2.Live ∧ ((task.pollPreparation work).1 = .ok false ∨
        (task.pollPreparation work).1 = .ok true ∧
          (task.pollPreparation work).2.preparationFinished = true) := by
  have hstate : task.state = .notStarted ∨ task.state = .preparing := by
    rw [preparationFinished] at hunprepared
    cases hcase : task.state with
    | notStarted => exact Or.inl rfl
    | preparing => exact Or.inr rfl
    | ready => simp [hcase] at hunprepared
    | committing => simp [hcase] at hunprepared
    | completed => simp [hcase] at hunprepared
  rcases pollPreparation_cases hfailure hstate hcountable with
    ⟨thrown, herror, -⟩ | ⟨hpending, hnone, hpreparing⟩ | ⟨hprepared, hnone, hready⟩ |
    ⟨hprepared, result, hdone⟩
  · exact Or.inl ⟨thrown, herror⟩
  · exact Or.inr ⟨Or.inl ⟨hnone, by rw [hpreparing]; decide⟩, Or.inl hpending⟩
  · exact Or.inr ⟨Or.inl ⟨hnone, by rw [hready]; decide⟩,
      Or.inr ⟨hprepared, by simp [preparationFinished, hready]⟩⟩
  · exact Or.inr ⟨Or.inr ⟨result, hdone⟩,
      Or.inr ⟨hprepared, by simp [preparationFinished, hdone.completed]⟩⟩

/-- A step of a prepared task that is not done fails, or leaves a live task. -/
theorem Live.advance (hlive : task.Live) (hprepared : task.preparationFinished = true)
    (hunfinished : task.finished = false) {work : CommitWork} (hcountable : work.Countable) :
    (∃ thrown, (task.advance work).1 = .error thrown) ∨
      (∃ progress, (task.advance work).1 = .ok progress) ∧ (task.advance work).2.Live := by
  have hstate : task.state = .ready ∨ task.state = .committing := by
    rw [preparationFinished] at hprepared
    rw [finished] at hunfinished
    cases hcase : task.state with
    | notStarted => simp [hcase] at hprepared
    | preparing => simp [hcase] at hprepared
    | ready => exact Or.inl rfl
    | committing => exact Or.inr rfl
    | completed => simp [hcase] at hunfinished
  have hfailure := hlive.unfailed (by rcases hstate with h | h <;> rw [h] <;> decide)
  rcases advance_cases hfailure hstate hcountable with
    ⟨thrown, herror, -⟩ | ⟨progress, hprogress, hnone, hcommitting⟩ |
    ⟨progress, hprogress, result, hdone⟩
  · exact Or.inl ⟨thrown, herror⟩
  · exact Or.inr ⟨⟨progress, hprogress⟩, Or.inl ⟨hnone, by rw [hcommitting]; decide⟩⟩
  · exact Or.inr ⟨⟨progress, hprogress⟩, Or.inr ⟨result, hdone⟩⟩

end FileStagingTask

/-- The same over the store, where reading the list may fail first. -/
theorem StoredStagingTask.live_pollPreparation {stored : StoredStagingTask}
    (hfailure : stored.task.failure = none)
    (hunprepared : stored.task.preparationFinished = false)
    (load : Except Thrown (List FileStagingEntry)) {work : PreparationWork}
    (hcountable : work.Countable) :
    (∃ thrown, (stored.pollPreparation load work).1 = .error thrown) ∨
      (stored.pollPreparation load work).2.task.Live ∧
        ((stored.pollPreparation load work).1 = .ok false ∨
          (stored.pollPreparation load work).1 = .ok true ∧
            (stored.pollPreparation load work).2.task.preparationFinished = true) := by
  unfold pollPreparation
  split_ifs
  · cases load with
    | error thrown => exact Or.inl ⟨thrown, rfl⟩
    | ok entries =>
        exact FileStagingTask.live_pollPreparation { stored.task with entries := entries } hfailure
          hunprepared hcountable
  · exact FileStagingTask.live_pollPreparation stored.task hfailure hunprepared hcountable

/-! ## The view model -/

namespace FileStagingProgressViewModel

/-- The batches that were completed, in order. -/
def completions (outputs : List Output) : List FileStagingBatchResult :=
  outputs.filterMap fun output =>
    match output with
    | .completion result => some result
    | _ => none

/-- The view model waits for its timer and goes on with its task. -/
structure Driving (viewModel : FileStagingProgressViewModel) : Prop where
  undecided : viewModel.finalResult = none
  uncompleting : viewModel.completing = none
  live : viewModel.stored.task.Live
  silent : completions viewModel.outputs = []

/-- The batch is known and waits for the single shot. -/
structure Closing (viewModel : FileStagingProgressViewModel) (batch : FileStagingBatchResult) :
    Prop where
  decided : viewModel.finalResult = some batch
  completing : viewModel.completing.isSome = true
  stopped : viewModel.timer = none
  ends : viewModel.stored.Ends batch
  silent : completions viewModel.outputs = []

/-- The batch was completed; nothing runs any more. -/
structure Closed (viewModel : FileStagingProgressViewModel) (batch : FileStagingBatchResult) :
    Prop where
  undecided : viewModel.finalResult = none
  uncompleting : viewModel.completing = none
  stopped : viewModel.timer = none
  ends : viewModel.stored.Ends batch
  completed : completions viewModel.outputs = [batch]

def Sound (viewModel : FileStagingProgressViewModel) : Prop :=
  (Driving viewModel ∧ viewModel.timer.isSome = true) ∨
    (∃ batch, Closing viewModel batch) ∨ ∃ batch, Closed viewModel batch

variable {viewModel : FileStagingProgressViewModel}

theorem completions_append (outputs more : List Output) :
    completions (outputs ++ more) = completions outputs ++ completions more :=
  List.filterMap_append

theorem Closing.complete {batch : FileStagingBatchResult} (hclosing : Closing viewModel batch) :
    Closed (complete { viewModel with completing := none }) batch := by
  simp only [FileStagingProgressViewModel.complete, hclosing.decided]
  exact
    { undecided := rfl
      uncompleting := rfl
      stopped := hclosing.stopped
      ends := hclosing.ends
      completed := by
        simp only [emit, completions_append, hclosing.silent]
        rfl }

/-- A batch that ends the task is completed now or by the single shot. -/
theorem sound_finish (viewModel : FileStagingProgressViewModel)
    (hundecided : viewModel.finalResult = none)
    (huncompleting : viewModel.completing = none) (hstopped : viewModel.timer = none)
    (hsilent : completions viewModel.outputs = []) {batch : FileStagingBatchResult}
    (hends : viewModel.stored.Ends batch) (now : ℕ) :
    Sound (viewModel.finishAfterMinimumDuration now batch) := by
  have hshown : ∀ state, completions (viewModel.outputs ++ [.stateChanged state]) = [] := by
    intro state
    rw [completions_append, hsilent]
    rfl
  rw [finishAfterMinimumDuration, if_neg (by rw [hundecided]; decide)]
  dsimp only
  split_ifs
  · refine Or.inr (Or.inl ⟨batch, ?_⟩)
    exact
      { decided := rfl
        completing := rfl
        stopped := rfl
        ends := hends
        silent := hshown _ }
  · refine Or.inr (Or.inr ⟨batch, ?_⟩)
    exact
      { undecided := rfl
        uncompleting := huncompleting
        stopped := hstopped
        ends := hends
        completed := by
          simp only [FileStagingProgressViewModel.complete, emit, completions_append, hsilent]
          rfl }

/-- An exception of the task, or of the renderer, ends the batch as well. -/
theorem Driving.sound_failed (hdriving : Driving viewModel) (hstopped : viewModel.timer = none)
    (stored : StoredStagingTask) (now : ℕ) (thrown : Thrown) :
    Sound (failed { viewModel with stored := stored } now thrown) :=
  sound_finish { viewModel with stored := stored } hdriving.undecided hdriving.uncompleting
    hstopped hdriving.silent
    { entries := rfl
      result := Or.inr ⟨rfl, _, rfl⟩ } now

theorem Driving.sound_advanceCommit (hdriving : Driving viewModel)
    (hstopped : viewModel.timer = none)
    (hprepared : viewModel.stored.task.preparationFinished = true) (now : ℕ)
    (answers : Answers) : Sound (viewModel.advanceCommit now answers) := by
  rw [advanceCommit]
  cases hfinished : viewModel.stored.task.finished with
  | true =>
      -- A task that has finished is done, so its result is there.
      obtain ⟨result, hdone⟩ : ∃ result, viewModel.stored.task.Done result := by
        rcases hdriving.live with ⟨-, hunfinished⟩ | hdone
        · exact absurd (of_decide_eq_true hfinished) hunfinished
        · exact hdone
      rw [if_pos rfl, conclude]
      simp only [hdone.getResult]
      split
      · exact hdriving.sound_failed hstopped viewModel.stored now _
      · exact sound_finish viewModel hdriving.undecided hdriving.uncompleting hstopped
          hdriving.silent
          { entries := rfl
            result := Or.inl ⟨result, _, hdone, rfl, rfl⟩ } now
  | false =>
      rw [if_neg (by decide)]
      have hstep := hdriving.live.advance hprepared hfinished answers.commit_countable
      rcases hadvance : viewModel.stored.task.advance answers.commit with ⟨answer, task⟩
      rw [hadvance] at hstep
      rcases hstep with ⟨thrown, rfl⟩ | ⟨⟨progress, rfl⟩, hlive⟩
      · exact hdriving.sound_failed hstopped _ now thrown
      · refine Or.inl ⟨?_, rfl⟩
        exact
          { undecided := hdriving.undecided
            uncompleting := hdriving.uncompleting
            live := hlive
            silent := by
              simp only [emit, withTask, completions_append, hdriving.silent]
              rfl }

theorem Driving.sound_advance (hdriving : Driving viewModel) (hstopped : viewModel.timer = none)
    (now : ℕ) (answers : Answers) : Sound (viewModel.advance now answers) := by
  rw [FileStagingProgressViewModel.advance]
  cases hprepared : viewModel.stored.task.preparationFinished with
  | true => exact hdriving.sound_advanceCommit hstopped hprepared now answers
  | false =>
      have hfailure := hdriving.live.unfailed (by
        intro hcompleted
        simp [FileStagingTask.preparationFinished, hcompleted] at hprepared)
      have hpoll := StoredStagingTask.live_pollPreparation hfailure hprepared answers.load
        answers.preparation_countable
      rw [if_neg (by decide)]
      rcases hanswer : viewModel.stored.pollPreparation answers.load answers.preparation with
        ⟨answer, stored⟩
      rw [hanswer] at hpoll
      rcases hpoll with ⟨thrown, rfl⟩ | ⟨hlive, rfl | ⟨rfl, hready⟩⟩
      · exact hdriving.sound_failed hstopped stored now thrown
      · dsimp only
        rw [scanning]
        split_ifs
        · refine Or.inl ⟨?_, rfl⟩
          exact
            { undecided := hdriving.undecided
              uncompleting := hdriving.uncompleting
              live := hlive
              silent := by
                simp only [emit, completions_append, hdriving.silent]
                rfl }
        · exact Or.inl ⟨⟨hdriving.undecided, hdriving.uncompleting, hlive, hdriving.silent⟩, rfl⟩
      · have hready : stored.task.preparationFinished = true := hready
        simp only [FileStagingTask.totalFiles, hready, if_true]
        have hcommitting : ∀ state, Driving (emit
            { viewModel with stored := stored, state := state } [.stateChanged state]) :=
          fun state =>
          { undecided := hdriving.undecided
            uncompleting := hdriving.uncompleting
            live := hlive
            silent := by
              simp only [emit, completions_append, hdriving.silent]
              rfl }
        exact (hcommitting _).sound_advanceCommit hstopped hready now answers

theorem sound_step (hsound : Sound viewModel) (input : Input) : Sound (viewModel.step input) := by
  cases input with
  | timeout now answers =>
      rw [step]
      rcases hsound with ⟨hdriving, htimer⟩ | ⟨batch, hclosing⟩ | ⟨batch, hclosed⟩
      · rw [if_neg (by simpa using Option.isSome_iff_ne_none.1 htimer)]
        have hfired : Driving { viewModel with timer := none } :=
          ⟨hdriving.undecided, hdriving.uncompleting, hdriving.live, hdriving.silent⟩
        exact hfired.sound_advance rfl now answers
      · rw [if_pos (by rw [hclosing.stopped]; rfl)]
        exact Or.inr (Or.inl ⟨batch, hclosing⟩)
      · rw [if_pos (by rw [hclosed.stopped]; rfl)]
        exact Or.inr (Or.inr ⟨batch, hclosed⟩)
  | singleShot =>
      rw [step]
      rcases hsound with ⟨hdriving, htimer⟩ | ⟨batch, hclosing⟩ | ⟨batch, hclosed⟩
      · rw [if_pos (by rw [hdriving.uncompleting]; rfl)]
        exact Or.inl ⟨hdriving, htimer⟩
      · rw [if_neg (by simpa using Option.isSome_iff_ne_none.1 hclosing.completing)]
        exact Or.inr (Or.inr ⟨batch, hclosing.complete⟩)
      · rw [if_pos (by rw [hclosed.uncompleting]; rfl)]
        exact Or.inr (Or.inr ⟨batch, hclosed⟩)

theorem sound_run (capability : UwfCapability) (now : ℕ) (inputs : List Input) :
    Sound (run capability now inputs) := by
  have hfold : ∀ {viewModel : FileStagingProgressViewModel}, Sound viewModel →
      Sound (inputs.foldl step viewModel) := by
    induction inputs with
    | nil => exact id
    | cons input rest ih => exact fun hsound => ih (sound_step hsound input)
  refine hfold (Or.inl ⟨?_, rfl⟩)
  exact
    { undecided := rfl
      uncompleting := rfl
      live := Or.inl ⟨rfl, fun hstate => FileStagingTask.State.noConfusion hstate⟩
      silent := rfl }

/-- A batch is completed once at most, with the list and the result of its task or with the
failure that ended it; until then one timer runs. -/
theorem batch_completes_once (capability : UwfCapability) (now : ℕ) (inputs : List Input) :
    (completions (run capability now inputs).outputs = [] ∧
        ((run capability now inputs).timer.isSome ^^
          (run capability now inputs).completing.isSome) = true) ∨
      ∃ batch, completions (run capability now inputs).outputs = [batch] ∧
        (run capability now inputs).timer = none ∧
        (run capability now inputs).completing = none ∧
        (run capability now inputs).stored.Ends batch := by
  rcases sound_run capability now inputs with ⟨hdriving, htimer⟩ | ⟨batch, hclosing⟩ |
    ⟨batch, hclosed⟩
  · exact Or.inl ⟨hdriving.silent, by rw [htimer, hdriving.uncompleting]; rfl⟩
  · exact Or.inl ⟨hclosing.silent, by rw [hclosing.stopped, hclosing.completing]; rfl⟩
  · exact Or.inr ⟨batch, hclosed.completed, hclosed.stopped, hclosed.uncompleting, hclosed.ends⟩

end FileStagingProgressViewModel

end UwfManager
