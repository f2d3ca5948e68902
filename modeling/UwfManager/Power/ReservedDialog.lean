import UwfManager.Power.DialogOutcomes
import UwfManager.Staging.StagingProgressRuns

/-!
# The dialog over the staging of a power action

The callbacks that `executeReserved` gives to its dialog meet the contract of the dialog.
The outcome of the dialog therefore passes every check the coordinator makes before the
power call, and no outcome leaves a commit running.
-/

namespace UwfManager

open PowerDialogViewModel

/-! ## The situations of the staging -/

namespace StagingRun

/-- No commit runs: a task that was committing has failed. -/
def Stopped (run : StagingRun) : Prop :=
  ∀ task, run.stagingTask = some task → task.state = .committing → task.failure.isSome = true

/-- Nothing was read yet, or the task of the list that was read is being prepared. -/
structure Polling (run : StagingRun) : Prop where
  undecided : run.stagingResult = none
  unread : run.stagedEntries = none → run.stagingTask = none
  task : ∀ task, run.stagingTask = some task →
    task.failure = none ∧ (task.state = .notStarted ∨ task.state = .preparing)

structure Prepared (run : StagingRun) : Prop where
  undecided : run.stagingResult = none
  task : ∃ task, run.stagingTask = some task ∧ task.failure = none ∧ task.state = .ready

structure Advancing (run : StagingRun) : Prop where
  undecided : run.stagingResult = none
  task : ∃ task, run.stagingTask = some task ∧ task.failure = none ∧
    (task.state = .ready ∨ task.state = .committing)

structure Succeeded (run : StagingRun) : Prop where
  result : ∃ result, run.stagingResult = some result ∧ result.outcome = .succeeded
  stopped : run.Stopped

/-- Failures were recorded, and one target at least failed. -/
def Recorded (run : StagingRun) : Prop :=
  ∃ result, run.stagingResult = some result ∧ result.outcome = .completedWithFailures ∧
    result.failedFiles ≠ 0

variable {run : StagingRun}

theorem stopped_of_failed {task : FileStagingTask} {thrown : Thrown}
    (htask : run.stagingTask = some task) (hfailure : task.failure = some thrown) :
    run.Stopped := by
  intro same hsame _
  obtain rfl := Option.some.inj (htask.symm.trans hsame)
  simp [hfailure]

theorem stopped_of_state {task : FileStagingTask} (htask : run.stagingTask = some task)
    (hstate : task.state ≠ .committing) : run.Stopped := by
  intro same hsame hcommitting
  obtain rfl := Option.some.inj (htask.symm.trans hsame)
  exact absurd hcommitting hstate

theorem Polling.stopped (hpolling : run.Polling) : run.Stopped := by
  intro task htask hcommitting
  rcases (hpolling.task task htask).2 with hstate | hstate
  · exact absurd (hstate.symm.trans hcommitting) (by decide)
  · exact absurd (hstate.symm.trans hcommitting) (by decide)

theorem Prepared.stopped (hprepared : run.Prepared) : run.Stopped := by
  obtain ⟨task, htask, -, hready⟩ := hprepared.task
  exact stopped_of_state htask (by rw [hready]; decide)

theorem Prepared.advancing (hprepared : run.Prepared) : run.Advancing where
  undecided := hprepared.undecided
  task := by
    obtain ⟨task, htask, hfailure, hready⟩ := hprepared.task
    exact ⟨task, htask, hfailure, Or.inl hready⟩

theorem Stopped.fail (hstopped : run.Stopped) (detail : Text) : (run.fail detail).Stopped :=
  hstopped

theorem incomplete?_of_undecided (hundecided : run.stagingResult = none) :
    run.incomplete? = none := by
  rw [incomplete?, hundecided]
  rfl

/-! ## The commit -/

/-- What a status of the commit says about the staging behind it. -/
structure Reached (status : PowerStagingProgress) (run : StagingRun) : Prop where
  inProgress : status.state = .inProgress → run.Advancing
  completed : status.state = .completed → run.Succeeded
  failed : status.state = .failed →
    run.Stopped ∧ (canContinueAfter status = true → run.Recorded)

theorem reached_advanceFailed (hstopped : run.Stopped) (thrown : Thrown) :
    Reached (run.advanceFailed thrown).1 (run.advanceFailed thrown).2 where
  inProgress := fun hstate => absurd hstate (by simp [advanceFailed])
  completed := fun hstate => absurd hstate (by simp [advanceFailed])
  failed := fun _ =>
    ⟨hstopped.fail _, fun hcontinue => absurd hcontinue (by simp [advanceFailed, canContinueAfter])⟩

/-- A finished task decides the staging. -/
theorem reached_conclude (run : StagingRun) {task : FileStagingTask}
    {result : FileStagingCommitResult} (hdone : task.Done result)
    (progress : FileStagingTaskProgress) (answers : AdvanceAnswers) :
    Reached (run.conclude task progress answers).1 (run.conclude task progress answers).2 ∧
      (run.conclude task progress answers).1.state ≠ .inProgress := by
  -- Nothing after the result of the task touches the task.
  have hstopped : ∀ decided : StagingRun, decided.stagingTask = some task → decided.Stopped :=
    fun decided htask => stopped_of_state htask (by rw [hdone.completed]; decide)
  rw [conclude]
  simp only [hdone.getResult]
  cases hsucceeded : result.succeeded with
  | true =>
      refine ⟨?_, by simp⟩
      exact
        { inProgress := fun hstate => absurd hstate (by simp)
          completed := fun _ =>
            { result := ⟨_, rfl, by simp [toApplicationCommandResult, hsucceeded]⟩
              stopped := hstopped _ rfl }
          failed := fun hstate => absurd hstate (by simp) }
  | false =>
      simp only [Bool.false_eq_true, if_false]
      cases answers.describe with
      | error thrown =>
          exact ⟨reached_advanceFailed (hstopped _ rfl) thrown, by simp [advanceFailed]⟩
      | ok detail =>
          dsimp only
          cases answers.describeAgain with
          | error thrown =>
              exact ⟨reached_advanceFailed (hstopped _ rfl) thrown, by simp [advanceFailed]⟩
          | ok details =>
              refine ⟨?_, by simp⟩
              exact
                { inProgress := fun hstate => absurd hstate (by simp)
                  completed := fun hstate => absurd hstate (by simp)
                  failed := fun _ => ⟨hstopped _ rfl, fun _ =>
                    ⟨_, rfl, by simp [toApplicationCommandResult, hsucceeded],
                      hdone.countable.failedFiles_ne_zero hsucceeded detail⟩⟩ }

theorem reached_advanceStaging (hadvancing : run.Advancing) {answers : AdvanceAnswers}
    (hcountable : answers.work.Countable) :
    Reached (run.advanceStaging answers).1 (run.advanceStaging answers).2 := by
  obtain ⟨task, htask, hfailure, hstate⟩ := hadvancing.task
  have hprepared : task.preparationFinished = true := by
    rcases hstate with hstate | hstate
    · simp [FileStagingTask.preparationFinished, hstate]
    · simp [FileStagingTask.preparationFinished, hstate]
  have hunfinished : task.finished = false := by
    rcases hstate with hstate | hstate
    · simp [FileStagingTask.finished, hstate]
    · simp [FileStagingTask.finished, hstate]
  have hcases := FileStagingTask.advance_cases hfailure hstate hcountable
  rw [advanceStaging]
  simp only [incomplete?_of_undecided hadvancing.undecided, htask, hprepared, hunfinished,
    Bool.not_true, Bool.false_eq_true, if_false]
  rcases hstep : task.advance answers.work with ⟨answer, after⟩
  rw [hstep] at hcases
  rcases hcases with ⟨thrown, rfl, hfailed⟩ | ⟨progress, rfl, hnone, hcommitting⟩ |
    ⟨progress, rfl, result, hdone⟩
  · exact reached_advanceFailed (stopped_of_failed rfl hfailed) thrown
  · have hrunning : after.finished = false := by
      have hcommitting : after.state = .committing := hcommitting
      simp [FileStagingTask.finished, hcommitting]
    simp only [hrunning, Bool.false_eq_true, if_false]
    exact
      { inProgress := fun _ =>
          { undecided := hadvancing.undecided
            task := ⟨after, rfl, hnone, Or.inr hcommitting⟩ }
        completed := fun hstate => absurd hstate (by simp)
        failed := fun hstate => absurd hstate (by simp) }
  · have hfinished : after.finished = true := by
      have hcompleted : after.state = .completed := hdone.completed
      simp [FileStagingTask.finished, hcompleted]
    simp only [hfinished, if_true]
    exact (reached_conclude _ hdone progress answers).1

/-! ## The preparation -/

/-- What an answer of the preparation says about the staging behind it. -/
def Answered (run : StagingRun) : Option PowerStagingPreparation → Prop
  | none => run.Polling
  | some .notRequired => run.Succeeded
  | some (.commit _) => run.Prepared
  | some (.failure failure) =>
      run.Stopped ∧ (canContinueAfter (failureStatus failure) = true → run.Recorded)

theorem answered_pollFailed (hstopped : run.Stopped) (thrown : Thrown) :
    Answered (run.pollFailed thrown).2 (run.pollFailed thrown).1 :=
  ⟨hstopped.fail _, fun hcontinue => absurd hcontinue Bool.false_ne_true⟩

/-- A task that is done before anything has to be committed is concluded at once. -/
theorem advanceStaging_of_done (run : StagingRun) {task : FileStagingTask}
    {result : FileStagingCommitResult} (hundecided : run.stagingResult = none)
    (hdone : task.Done result) (htask : run.stagingTask = some task) (answers : AdvanceAnswers) :
    run.advanceStaging answers = run.conclude task {} answers := by
  have hprepared : task.preparationFinished = true := by
    simp [FileStagingTask.preparationFinished, hdone.completed]
  have hfinished : task.finished = true := by
    simp [FileStagingTask.finished, hdone.completed]
  rw [advanceStaging]
  simp only [incomplete?_of_undecided hundecided, htask, hprepared, hfinished, Bool.not_true,
    Bool.false_eq_true, if_false, if_true]

theorem answered_pollTask (hpolling : run.Polling) {entries : List FileStagingEntry}
    (hread : run.stagedEntries = some entries) {poll : PollAnswers}
    (hcountable : poll.work.Countable) (advance : AdvanceAnswers) :
    Answered (run.pollTask poll advance).2 (run.pollTask poll advance).1 := by
  rw [pollTask]
  cases htask : run.stagingTask with
  | none => exact answered_pollFailed hpolling.stopped _
  | some task =>
      obtain ⟨hfailure, hstate⟩ := hpolling.task task htask
      have hcases := FileStagingTask.pollPreparation_cases hfailure hstate hcountable
      dsimp only
      rcases hpoll : task.pollPreparation poll.work with ⟨answer, after⟩
      rw [hpoll] at hcases
      rcases hcases with ⟨thrown, rfl, hfailed⟩ | ⟨rfl, hnone, hpreparing⟩ |
        ⟨rfl, hnone, hready⟩ | ⟨rfl, result, hdone⟩
      · exact answered_pollFailed (stopped_of_failed rfl hfailed) thrown
      · exact
          { undecided := hpolling.undecided
            unread := fun hunread => absurd (hread.symm.trans hunread) (Option.some_ne_none _)
            task := fun same hsame => by
              obtain rfl := Option.some.inj hsame
              exact ⟨hnone, Or.inr hpreparing⟩ }
      · have hready : after.state = .ready := hready
        simp only [FileStagingTask.totalFiles, FileStagingTask.preparationFinished,
          FileStagingTask.finished, hready, decide_true, Bool.true_or, if_true]
        exact
          { undecided := hpolling.undecided
            task := ⟨after, rfl, hnone, hready⟩ }
      · have hdone : after.Done result := hdone
        obtain ⟨hreached, hended⟩ :=
          reached_conclude { run with stagingTask := some after } hdone {} advance
        have hconclude := advanceStaging_of_done { run with stagingTask := some after }
          hpolling.undecided hdone rfl advance
        simp only [FileStagingTask.totalFiles, FileStagingTask.preparationFinished,
          FileStagingTask.finished, hdone.completed, decide_true, Bool.or_true, if_true, hconclude]
        split_ifs with hfailed
        · exact hreached.failed hfailed
        · cases hstatus : (conclude after {} advance
              { run with stagingTask := some after }).1.state with
          | inProgress => exact absurd hstatus hended
          | completed => exact hreached.completed hstatus
          | failed => exact absurd hstatus hfailed

theorem answered_pollStagingPreparation (hpolling : run.Polling) (capability : UwfCapability)
    {poll : PollAnswers} (hcountable : poll.work.Countable) (advance : AdvanceAnswers) :
    Answered (run.pollStagingPreparation capability poll advance).2
      (run.pollStagingPreparation capability poll advance).1 := by
  rw [pollStagingPreparation]
  simp only [incomplete?_of_undecided hpolling.undecided]
  cases hread : run.stagedEntries with
  | some entries => exact answered_pollTask hpolling hread hcountable advance
  | none =>
      have hnone := hpolling.unread hread
      dsimp only
      cases poll.load with
      | error thrown =>
          exact ⟨hpolling.stopped.fail _, fun hcontinue => absurd hcontinue Bool.false_ne_true⟩
      | ok entries =>
          have htaskless : ∀ loaded : StagingRun, loaded.stagingTask = none → loaded.Stopped :=
            fun loaded hloaded task htask =>
              absurd (hloaded.symm.trans htask) (Option.some_ne_none task).symm
          dsimp only
          split_ifs
          · exact
              { result := ⟨{}, rfl, rfl⟩
                stopped := htaskless _ hnone }
          · cases poll.construct with
            | error thrown => exact answered_pollFailed (htaskless _ hnone) thrown
            | ok _ =>
                refine answered_pollTask ?_ rfl hcountable advance
                exact
                  { undecided := hpolling.undecided
                    unread := fun hunread => absurd hunread (Option.some_ne_none entries)
                    task := fun task htask => by
                      obtain rfl := Option.some.inj htask
                      exact ⟨rfl, Or.inl rfl⟩ }

end StagingRun

/-! ## The callbacks of the coordinator -/

/-- What the services answer to one call of either callback. -/
structure StagingAnswers where
  poll : PollAnswers := {}
  advance : AdvanceAnswers := {}
  poll_countable : poll.work.Countable := by trivial
  advance_countable : advance.work.Countable := by trivial

namespace StagingRun

variable {run : StagingRun}

/-- The two lambdas of `executeReserved`, which catch what their services throw. -/
def callbacks (capability : UwfCapability) : PowerDialogCallbacks StagingRun StagingAnswers where
  poll answers run :=
    let (prepared, after) := run.pollStagingPreparation capability answers.poll answers.advance
    (.ok prepared, after)
  advance answers run :=
    let (status, after) := run.advanceStaging answers.advance
    (.ok status, after)

theorem answered_of_poll {capability : UwfCapability} {answers : StagingAnswers}
    {after : StagingRun} {prepared : Option PowerStagingPreparation} (hpolling : run.Polling)
    (hanswer : (callbacks capability).poll answers run = (.ok prepared, after)) :
    Answered after prepared := by
  obtain ⟨hprepared, rfl⟩ := Prod.mk.inj hanswer
  obtain rfl := Except.ok.inj hprepared
  exact answered_pollStagingPreparation hpolling capability answers.poll_countable
    answers.advance

theorem reached_of_advance {capability : UwfCapability} {answers : StagingAnswers}
    {after : StagingRun} {status : PowerStagingProgress} (hadvancing : run.Advancing)
    (hanswer : (callbacks capability).advance answers run = (.ok status, after)) :
    Reached status after := by
  obtain ⟨hstatus, rfl⟩ := Prod.mk.inj hanswer
  obtain rfl := Except.ok.inj hstatus
  exact reached_advanceStaging hadvancing answers.advance_countable

/-- The callbacks of the coordinator meet the contract of its dialog. -/
def contract (capability : UwfCapability) : PowerDialogContract (callbacks capability) where
  Polling := Polling
  Prepared := Prepared
  Advancing := Advancing
  Succeeded := Succeeded
  Recorded := Recorded
  Stopped := Stopped
  stopped_of_polling := Polling.stopped
  stopped_of_prepared := Prepared.stopped
  stopped_of_succeeded := Succeeded.stopped
  advancing_of_prepared := Prepared.advancing
  poll_thrown := fun _ hthrown => by cases (Prod.mk.inj hthrown).1
  poll_pending := answered_of_poll
  poll_notRequired := answered_of_poll
  poll_commit := answered_of_poll
  poll_failure := answered_of_poll
  advance_thrown := fun _ hthrown => by cases (Prod.mk.inj hthrown).1
  advance_inProgress := fun hadvancing hanswer =>
    (reached_of_advance hadvancing hanswer).inProgress
  advance_completed := fun hadvancing hanswer =>
    (reached_of_advance hadvancing hanswer).completed
  advance_failed := fun hadvancing hanswer => (reached_of_advance hadvancing hanswer).failed

theorem polling_initial : Polling {} where
  undecided := rfl
  unread := fun _ => rfl
  task := fun task htask => absurd htask (Option.some_ne_none task).symm

/-! ## What the coordinator gets -/

theorem checkContinuation_of_vouched {capability : UwfCapability}
    {outcome : PowerActionDialogOutcome}
    (hvouched : PowerConfirmDialog.Vouched (contract capability) run outcome)
    (hchecked : outcome = .confirmed ∨ outcome = .continuedAfterStagingFailure) :
    checkContinuation run.stagingResult outcome = .ok () := by
  rcases hchecked with rfl | rfl
  · obtain ⟨⟨result, hresult, houtcome⟩, -⟩ : run.Succeeded := hvouched
    rw [checkContinuation, hresult]
    simp [approveContinuation, requireFinalResult, houtcome]
  · obtain ⟨result, hresult, houtcome, hfailed⟩ : run.Recorded := hvouched
    rw [checkContinuation, hresult]
    simp [approveContinuation, requireFinalResult, houtcome, hfailed]

/-- After an outcome that its dialog vouches for, the coordinator warns of nothing but a
failure of the provider. -/
theorem warnings_reservedConfirmed {capability : UwfCapability}
    {outcome : PowerActionDialogOutcome}
    (hvouched : PowerConfirmDialog.Vouched (contract capability) run outcome)
    (control : PreshutdownCommitControl) (lease : ℕ) (answers : PowerAnswers)
    (world : PowerWorld)
    (hpower : (invokePowerAction control answers world.action).result = .ok ()) :
    (world.reservedConfirmed control lease run (.ok outcome) answers).warnings =
      world.warnings := by
  have hclosed : ∀ called : PowerWorld,
      (called.closeReserved lease run).release.warnings = called.warnings := by
    intro called
    rw [PowerWorld.closeReserved]
    cases run.stagingResult with
    | none => rfl
    | some result => rfl
  have hinvoked : ∀ (failed : Thrown → PowerWorld → PowerWorld) (done : PowerWorld → PowerWorld),
      (∀ called : PowerWorld, (done called).warnings = called.warnings) →
      (world.invoke control outcome (.reserved run) answers failed done).warnings =
        world.warnings := by
    intro failed done hdone
    rw [PowerWorld.invoke]
    split_ifs
    · rfl
    · rw [hpower]
      exact hdone _
  cases outcome with
  | canceled => exact hclosed world
  | canceledAfterStagingFailure => exact hclosed world
  | directConfirmed =>
      refine hinvoked _ _ fun called => ?_
      split_ifs
      · rfl
      · exact hclosed called
  | confirmed =>
      have hcheck := checkContinuation_of_vouched hvouched (Or.inl rfl)
      unfold PowerWorld.reservedConfirmed
      simp only [hcheck]
      exact hinvoked _ _ hclosed
  | continuedAfterStagingFailure =>
      have hcheck := checkContinuation_of_vouched hvouched (Or.inr rfl)
      unfold PowerWorld.reservedConfirmed
      simp only [hcheck]
      exact hinvoked _ _ hclosed

/-- However its dialog was closed, it has an outcome; no commit is left running, and the
coordinator warns of nothing unless the provider fails. -/
theorem closed_dialog_is_accepted_by_coordinator (capability : UwfCapability)
    (action : PowerAction) (inputs : List (PowerDialogInput StagingAnswers))
    {dialog : PowerConfirmDialog} {accepted : Bool}
    (hdialog : (PowerDialogRun.exec (callbacks capability) { action := action } true {}
      inputs).dialog = .ok dialog)
    (hclosed : dialog.result = some accepted) :
    ∃ outcome, dialog.viewModel.finish accepted = .ok outcome ∧
      let shared := (PowerDialogRun.exec (callbacks capability) { action := action } true {}
        inputs).shared
      shared.Stopped ∧
        ∀ (control : PreshutdownCommitControl) (lease : ℕ) (answers : PowerAnswers)
          (world : PowerWorld),
          (invokePowerAction control answers world.action).result = .ok () →
          (world.reservedConfirmed control lease shared (.ok outcome) answers).warnings =
            world.warnings := by
  have hsound : PowerConfirmDialog.Kept (contract capability)
      (PowerDialogRun.exec (callbacks capability) { action := action } true {} inputs) :=
    PowerDialogRun.sound_exec (contract capability) rfl rfl polling_initial inputs
  obtain ⟨kept, hkept, hsound⟩ := hsound
  obtain rfl := Except.ok.inj (hdialog.symm.trans hkept)
  rw [PowerConfirmDialog.Sound, hclosed] at hsound
  obtain ⟨outcome, hfinish, hvouched⟩ := hsound.outcome
  refine ⟨outcome, hfinish, hsound.stopped, ?_⟩
  intro control lease answers world hpower
  exact warnings_reservedConfirmed hvouched control lease answers world hpower

/-- One file is busy; the user first asks for a direct action, then goes on after all. -/
def continuedInputs : List (PowerDialogInput StagingAnswers) :=
  let failed : FileStagingCommitResult :=
    { failures :=
        [{ path := "C:\\data\\busy.db".toList
           kind := .providerFailure
           detail := "busy".toList }] }
  [.preparationTimeout 0
      { poll := { load := .ok [{ kind := .directory, path := "C:\\data".toList }] } },
    .preparationTimeout 50 { poll := { work := .ready 1 } },
    .directClicked,
    .directAnswered false,
    .preparationTimeout 1000 {},
    .actionClicked,
    .stepTimeout { advance := { work := .running {} } },
    .rejected,
    .stepTimeout
      { advance := { work := .finished {} failed }
        advance_countable := by
          simp [CommitWork.Countable, FileStagingCommitResult.Countable, failed] },
    .actionClicked]

theorem continued_dialog_is_accepted_by_coordinator :
    ∃ dialog : PowerConfirmDialog,
      (PowerDialogRun.exec (callbacks .available) { action := .restart } true {}
        continuedInputs).dialog = .ok dialog ∧
      dialog.viewModel.finish true = .ok .continuedAfterStagingFailure ∧
      (PowerDialogRun.exec (callbacks .available) { action := .restart } true {}
        continuedInputs).shared.Stopped := by
  refine ⟨_, rfl, rfl, ?_⟩
  obtain ⟨outcome, hfinish, hstopped, hwarnings⟩ :=
    closed_dialog_is_accepted_by_coordinator .available .restart continuedInputs rfl rfl
  exact hstopped

end StagingRun

end UwfManager
