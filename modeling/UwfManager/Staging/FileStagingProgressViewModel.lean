import UwfManager.Staging.StagingTaskSteps

/-!
# The progress of a command batch

The view model drives the task of a command batch from its timer, keeps it visible for a
second at least and then completes the batch, once and with what the task has done.
-/

namespace UwfManager

/-- `timing::kProgressUpdateInterval`, in milliseconds like every duration here. -/
def kProgressUpdateInterval : ℕ := 50

def kMinimumProgressDisplayDuration : ℕ := 1000

/-! ## A task over the store -/

/-- A task that reads its list from the store at its first poll. -/
structure StoredStagingTask where
  task : FileStagingTask
  sourceEntries : Option (List FileStagingEntry) := none

namespace StoredStagingTask

/-- The list is read before anything else of the first poll, and its failure is kept. -/
def pollPreparation (load : Except Thrown (List FileStagingEntry)) (work : PreparationWork)
    (stored : StoredStagingTask) : Except Thrown Bool × StoredStagingTask :=
  if stored.task.failure = none ∧ stored.task.state = .notStarted then
    match load with
    | .error thrown =>
        let (answer, task) := stored.task.recordFailure thrown
        (answer, { stored with task := task })
    | .ok entries =>
        let (answer, task) := { stored.task with entries := entries }.pollPreparation work
        (answer, { task := task, sourceEntries := some entries })
  else
    let (answer, task) := stored.task.pollPreparation work
    (answer, { stored with task := task })

end StoredStagingTask

/-! ## The view model -/

namespace FileStagingProgressViewModel

inductive Phase where
  | preparing
  | committing
  | finished
  deriving DecidableEq, Repr

structure State where
  phase : Phase := .preparing
  processed : UInt64 := 0
  total : UInt64 := 0
  currentPath : Text := []
  hasCommitProgress : Bool := false
  outcome : ApplicationCommandOutcome := .succeeded
  detail : Text := []

/-- The signals, and the calls of the progress observer and of the completion. -/
inductive Output where
  | presentationRequested
  | stateChanged (state : State)
  | progress (processed total : UInt64)
  | presentationFinished
  | completion (result : FileStagingBatchResult)

/-- What the store, the workers and the renderer of a result answer within one timeout. -/
structure Answers where
  load : Except Thrown (List FileStagingEntry) := .ok []
  preparation : PreparationWork := .running
  discovered : UInt64 := 0
  commit : CommitWork := .running {}
  describe : Except Thrown Text := .ok []
  preparation_countable : preparation.Countable := by trivial
  commit_countable : commit.Countable := by trivial

end FileStagingProgressViewModel

/-- `timer` holds the interval of the next step, `completing` that of the single shot which
completes the batch. -/
structure FileStagingProgressViewModel where
  stored : StoredStagingTask
  state : FileStagingProgressViewModel.State := {}
  timer : Option ℕ := none
  visibleElapsed : Option ℕ := none
  finalResult : Option FileStagingBatchResult := none
  completing : Option ℕ := none
  lastReportedProgress : UInt64 := 0
  outputs : List FileStagingProgressViewModel.Output := []

namespace FileStagingProgressViewModel

variable (viewModel : FileStagingProgressViewModel)

def emit (outputs : List Output) : FileStagingProgressViewModel :=
  { viewModel with outputs := viewModel.outputs ++ outputs }

def start (now : ℕ) : FileStagingProgressViewModel :=
  emit { viewModel with visibleElapsed := some now, timer := some 0 } [.presentationRequested]

def complete : FileStagingProgressViewModel :=
  match viewModel.finalResult with
  | none => viewModel
  | some result =>
      emit { viewModel with finalResult := none } [.presentationFinished, .completion result]

def finishAfterMinimumDuration (now : ℕ) (result : FileStagingBatchResult) :
    FileStagingProgressViewModel :=
  if viewModel.finalResult.isSome then viewModel
  else
    let state :=
      { viewModel.state with
        phase := .finished
        outcome := result.command.outcome
        detail := result.command.detail }
    let shown :=
      emit { viewModel with finalResult := some result, state := state } [.stateChanged state]
    let elapsed := now - viewModel.visibleElapsed.getD now
    if elapsed < kMinimumProgressDisplayDuration then
      { shown with timer := none, completing := some (kMinimumProgressDisplayDuration - elapsed) }
    else shown.complete

/-- The handlers of `advance`. -/
def failed (now : ℕ) (thrown : Thrown) : FileStagingProgressViewModel :=
  let detail :=
    match thrown with
    | .standard error => error.what
    | .other => "Automatic file staging stopped because of an unknown error.".toList
  viewModel.finishAfterMinimumDuration now
    { command := .infrastructureFailure detail, sourceEntries := viewModel.stored.sourceEntries }

/-- The batch of a task that has finished. -/
def conclude (now : ℕ) (answers : Answers) : FileStagingProgressViewModel :=
  match viewModel.stored.task.getResult with
  | .error thrown => viewModel.failed now thrown
  | .ok result =>
      match (if result.succeeded then .ok [] else answers.describe) with
      | .error thrown => viewModel.failed now thrown
      | .ok detail =>
          viewModel.finishAfterMinimumDuration now
            { command := toApplicationCommandResult result detail
              sourceEntries := viewModel.stored.sourceEntries
              result := some result }

def withTask (task : FileStagingTask) : FileStagingProgressViewModel :=
  { viewModel with stored := { viewModel.stored with task := task } }

/-- `advance` once the preparation has finished. -/
def advanceCommit (now : ℕ) (answers : Answers) : FileStagingProgressViewModel :=
  if viewModel.stored.task.finished then viewModel.conclude now answers
  else
    match viewModel.stored.task.advance answers.commit with
    | (.error thrown, task) => (viewModel.withTask task).failed now thrown
    | (.ok progress, task) =>
        let state :=
          { viewModel.state with
            total := progress.totalFiles
            processed := progress.processedFiles
            currentPath := progress.currentPath
            hasCommitProgress := true }
        emit { viewModel.withTask task with state := state, timer := some kProgressUpdateInterval }
          [.stateChanged state, .progress progress.processedFiles progress.totalFiles]

/-- The preparation goes on; its progress is reported when it has changed. -/
def scanning (discovered : UInt64) : FileStagingProgressViewModel :=
  let waiting := { viewModel with timer := some kProgressUpdateInterval }
  if discovered ≠ viewModel.lastReportedProgress then
    emit { waiting with lastReportedProgress := discovered } [.progress discovered 0]
  else waiting

def advance (now : ℕ) (answers : Answers) : FileStagingProgressViewModel :=
  if viewModel.stored.task.preparationFinished then viewModel.advanceCommit now answers
  else
    match viewModel.stored.pollPreparation answers.load answers.preparation with
    | (.error thrown, stored) => failed { viewModel with stored := stored } now thrown
    | (.ok false, stored) => scanning { viewModel with stored := stored } answers.discovered
    | (.ok true, stored) =>
        match stored.task.totalFiles with
        | .error thrown => failed { viewModel with stored := stored } now thrown
        | .ok total =>
            let state :=
              { viewModel.state with phase := .committing, total := total, processed := 0 }
            (emit { viewModel with stored := stored, state := state }
              [.stateChanged state]).advanceCommit now answers

inductive Input where
  | timeout (now : ℕ) (answers : Answers)
  | singleShot

def step : Input → FileStagingProgressViewModel
  | .timeout now answers =>
      if viewModel.timer.isNone then viewModel
      else advance { viewModel with timer := none } now answers
  | .singleShot =>
      if viewModel.completing.isNone then viewModel
      else complete { viewModel with completing := none }

/-- A batch from its start on. -/
def run (capability : UwfCapability) (now : ℕ) (inputs : List Input) :
    FileStagingProgressViewModel :=
  inputs.foldl step
    (start { stored := { task := { entries := [], capability := capability } } } now)

end FileStagingProgressViewModel

end UwfManager
