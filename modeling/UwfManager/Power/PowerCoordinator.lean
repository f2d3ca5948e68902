import UwfManager.Staging.FileStagingTask

/-!
# Power actions

A power action asks its dialog while other slots, staging callbacks and the timer
may run.  The answers of the dialog, the workers, the agent and the provider are
given by the caller; `PowerPhase` is where the action waits for the next one.
-/

namespace UwfManager

inductive PowerAction where
  | shutdown
  | restart
  deriving DecidableEq, Repr

inductive PowerActionDialogMode where
  | safe
  | direct
  deriving DecidableEq, Repr

inductive PowerActionDialogOutcome where
  | canceled
  | confirmed
  | directConfirmed
  | canceledAfterStagingFailure
  | continuedAfterStagingFailure
  deriving DecidableEq, Repr

inductive PowerStagingState where
  | inProgress
  | completed
  | failed
  deriving DecidableEq, Repr

structure PowerStagingProgress where
  state : PowerStagingState := .completed
  processedFiles : UInt64 := 0
  totalFiles : UInt64 := 0
  currentPath : Text := []
  failureDetails : Text := []
  failureResult : Option FileStagingCommitResult := none

structure PowerStagingFailure where
  details : Text
  result : Option FileStagingCommitResult := none

inductive PowerStagingPreparation where
  | notRequired
  | commit (filesToCommit : UInt64)
  | failure (failure : PowerStagingFailure)

/-! ## The provider call -/

inductive PreshutdownControlResult where
  | notApplicable
  | acknowledged
  | unacknowledged
  deriving DecidableEq, Repr

/-- Which of the two functions are set; enhanced mode sets both or neither. -/
structure PreshutdownCommitControl where
  markHandled : Bool := false
  markRequired : Bool := false
  paired : markHandled = markRequired := by rfl

/-- What the calls of one power action answer; a revocation that throws does so in a
scope guard and ends the process. -/
structure PowerAnswers where
  read : Except Thrown Unit := .ok ()
  markHandled : Except Thrown PreshutdownControlResult := .ok .notApplicable
  power : Except Thrown Unit := .ok ()
  markRequired : Option PreshutdownControlResult := some .notApplicable

inductive PowerCall where
  | readFilter
  | markHandled
  | power (action : PowerAction)
  | markRequired
  deriving DecidableEq, Repr

structure PowerInvocation where
  result : Except Thrown Unit
  calls : List PowerCall
  terminated : Bool := false

def markHandledResult (control : PreshutdownCommitControl) (answers : PowerAnswers) :
    Except Thrown PreshutdownControlResult :=
  if control.markHandled then answers.markHandled else .ok .notApplicable

def invokePowerAction (control : PreshutdownCommitControl) (answers : PowerAnswers)
    (action : PowerAction) : PowerInvocation :=
  match answers.read with
  | .error thrown => { result := .error thrown, calls := [.readFilter] }
  | .ok () =>
      let marked := .readFilter :: (if control.markHandled then [.markHandled] else [])
      match markHandledResult control answers with
      | .error thrown => { result := .error thrown, calls := marked }
      | .ok skipResult =>
          match answers.power with
          | .ok () => { result := .ok (), calls := marked ++ [.power action] }
          | .error thrown =>
              if skipResult ≠ .notApplicable ∧ control.markRequired = true then
                { result := .error thrown
                  calls := marked ++ [.power action, .markRequired]
                  terminated := answers.markRequired.isNone }
              else { result := .error thrown, calls := marked ++ [.power action] }

/-! ## Reports -/

def powerFailureTitle (action : PowerAction) (mode : PowerActionDialogMode) : Text :=
  match mode, action with
  | .direct, .shutdown => "Direct shutdown failed".toList
  | .direct, .restart => "Direct restart failed".toList
  | .safe, .shutdown => "Safe shutdown failed".toList
  | .safe, .restart => "Safe restart failed".toList

/-- `reportPowerFailure` and `reportUnknownPowerFailure`: the title and the message of
the warning. -/
def reportPowerFailure (action : PowerAction) (thrown : Thrown) (mode : PowerActionDialogMode) :
    Text × Text :=
  (powerFailureTitle action mode,
    match thrown, action with
    | .standard error, .shutdown => "Shutdown failed: ".toList ++ error.what
    | .standard error, .restart => "Restart failed: ".toList ++ error.what
    | .other, _ => "The operation failed with an unknown error.".toList)

/-! ## Staging inside the dialog -/

/-- The locals of `executeReserved` that the callbacks of its dialog share. -/
structure StagingRun where
  stagedEntries : Option (List FileStagingEntry) := none
  stagingResult : Option ApplicationCommandResult := none
  stagingCommitResult : Option FileStagingCommitResult := none
  stagingTask : Option FileStagingTask := none

/-- What the services answer to one poll of the preparation. -/
structure PollAnswers where
  load : Except Thrown (List FileStagingEntry) := .ok []
  construct : Except Thrown Unit := .ok ()
  work : PreparationWork := .running

/-- What the services answer to one step of the commit; the result is described twice. -/
structure AdvanceAnswers where
  work : CommitWork := .running {}
  describe : Except Thrown Text := .ok []
  describeAgain : Except Thrown Text := .ok []

def stoppedUnexpectedly : Thrown → Text
  | .standard error => "Automatic file staging stopped unexpectedly:\n".toList ++ error.what
  | .other => "Automatic file staging stopped because of an unknown error.".toList

def listUnreadable : Thrown → Text
  | .standard error => "The file staging list could not be read:\n".toList ++ error.what
  | .other => "The file staging list could not be read because of an unknown error.".toList

namespace StagingRun

def fail (detail : Text) (run : StagingRun) : StagingRun :=
  { run with stagingResult := some (.infrastructureFailure detail) }

/-- A result that ended the staging without being complete. -/
def incomplete? (run : StagingRun) : Option ApplicationCommandResult :=
  run.stagingResult.filter fun result => !result.completed

def advanceFailed (thrown : Thrown) (run : StagingRun) : PowerStagingProgress × StagingRun :=
  let detail := stoppedUnexpectedly thrown
  ({ state := .failed, failureDetails := detail }, run.fail detail)

/-- The task has finished: its result is the final one. -/
def conclude (task : FileStagingTask) (progress : FileStagingTaskProgress)
    (answers : AdvanceAnswers) (run : StagingRun) : PowerStagingProgress × StagingRun :=
  let run := { run with stagingTask := some task }
  match task.getResult with
  | .error thrown => run.advanceFailed thrown
  | .ok result =>
      if result.succeeded then
        ({ state := .completed, processedFiles := progress.processedFiles
           totalFiles := progress.totalFiles, currentPath := progress.currentPath },
          { run with
            stagingResult := some (toApplicationCommandResult result [])
            stagingCommitResult := some result })
      else
        match answers.describe with
        | .error thrown => run.advanceFailed thrown
        | .ok detail =>
            let final := { run with
              stagingResult := some (toApplicationCommandResult result detail)
              stagingCommitResult := some result }
            match answers.describeAgain with
            | .error thrown => final.advanceFailed thrown
            | .ok details =>
                ({ state := .failed, processedFiles := progress.processedFiles
                   totalFiles := progress.totalFiles, currentPath := progress.currentPath
                   failureDetails := details, failureResult := some result }, final)

def advanceStaging (answers : AdvanceAnswers) (run : StagingRun) :
    PowerStagingProgress × StagingRun :=
  match run.incomplete? with
  | some result => ({ state := .failed, failureDetails := result.detail }, run)
  | none =>
      match run.stagingTask with
      | none => run.advanceFailed (logicError "file staging task is unavailable".toList)
      | some task =>
          if !task.preparationFinished then
            run.advanceFailed (logicError "file staging task is unavailable".toList)
          else if task.finished then run.conclude task {} answers
          else
            match task.advance answers.work with
            | (.error thrown, task) => { run with stagingTask := some task }.advanceFailed thrown
            | (.ok progress, task) =>
                if task.finished then run.conclude task progress answers
                else
                  ({ state := .inProgress, processedFiles := progress.processedFiles
                     totalFiles := progress.totalFiles, currentPath := progress.currentPath },
                    { run with stagingTask := some task })

def pollFailed (thrown : Thrown) (run : StagingRun) : Option PowerStagingPreparation × StagingRun :=
  let detail := stoppedUnexpectedly thrown
  (some (.failure { details := detail }), run.fail detail)

/-- The preparation of a list that was read. -/
def pollTask (poll : PollAnswers) (advance : AdvanceAnswers) (run : StagingRun) :
    Option PowerStagingPreparation × StagingRun :=
  match run.stagingTask with
  | none =>
      run.pollFailed (logicError
        "file staging task was not created for a non-empty staging list".toList)
  | some task =>
      match task.pollPreparation poll.work with
      | (.error thrown, task) => { run with stagingTask := some task }.pollFailed thrown
      | (.ok false, task) => (none, { run with stagingTask := some task })
      | (.ok true, task) =>
          let polled := { run with stagingTask := some task }
          match task.totalFiles with
          | .error thrown => polled.pollFailed thrown
          | .ok filesToCommit =>
              if task.finished then
                let (status, after) := polled.advanceStaging advance
                if status.state = .failed then
                  (some (.failure ⟨status.failureDetails, status.failureResult⟩), after)
                else (some .notRequired, after)
              else (some (.commit filesToCommit), polled)

def pollStagingPreparation (capability : UwfCapability) (poll : PollAnswers)
    (advance : AdvanceAnswers) (run : StagingRun) : Option PowerStagingPreparation × StagingRun :=
  match run.incomplete? with
  | some result => (some (.failure { details := result.detail }), run)
  | none =>
      match run.stagedEntries with
      | some _ => run.pollTask poll advance
      | none =>
          match poll.load with
          | .error thrown =>
              let detail := listUnreadable thrown
              (some (.failure { details := detail }), run.fail detail)
          | .ok entries =>
              let loaded := { run with stagedEntries := some entries }
              if entries.isEmpty then
                (some .notRequired, { loaded with stagingResult := some {} })
              else
                match poll.construct with
                | .error thrown => loaded.pollFailed thrown
                | .ok () =>
                    { loaded with
                      stagingTask := some { entries := entries, capability := capability } }.pollTask
                        poll advance

end StagingRun

/-! ## Decisions after the dialog -/

/-- Whether the user approved to go on after recorded failures. -/
def approveContinuation (stagingResult : Option ApplicationCommandResult) :
    PowerActionDialogOutcome → Except Thrown Bool
  | .continuedAfterStagingFailure =>
      match stagingResult with
      | none =>
          .error (logicError "safe power action has no file staging failure to approve".toList)
      | some result =>
          if result.outcome ≠ .completedWithFailures ∨ result.failedFiles = 0 then
            .error (logicError
              "cannot approve a file staging failure without a recorded failed target".toList)
          else .ok true
  | _ => .ok false

def requireFinalResult (stagingResult : Option ApplicationCommandResult)
    (continuationApproved : Bool) : Except Thrown Unit :=
  match stagingResult with
  | none => .error (logicError "safe power action has no final file staging result".toList)
  | some result =>
      if result.outcome ≠ .succeeded ∧ continuationApproved = false then
        .error (logicError ("safe power action cannot continue without a completed staging " ++
          "result or explicit user approval").toList)
      else .ok ()

/-- Whether a dialog that was neither canceled nor confirmed directly leads to the call. -/
def checkContinuation (stagingResult : Option ApplicationCommandResult)
    (outcome : PowerActionDialogOutcome) : Except Thrown Unit :=
  match approveContinuation stagingResult outcome with
  | .error thrown => .error thrown
  | .ok approved => requireFinalResult stagingResult approved

def skippedBatch (stagedEntries : Option (List FileStagingEntry)) : FileStagingBatchResult where
  command :=
    { outcome := .rejected
      detail := "File staging was skipped because a direct power action was selected.".toList }
  sourceEntries := stagedEntries

/-- The failure the dialog shows when another entry has finished the batch. -/
def completedStagingFailure (result : FileStagingBatchResult) : Option PowerStagingFailure :=
  if result.command.outcome ≠ .succeeded then
    some
      { details :=
          if result.command.detail.isEmpty then
            if result.command.completed then
              "All staged targets were processed; one or more operations failed.".toList
            else "Automatic file staging stopped because of an unknown error.".toList
          else result.command.detail
        result := result.result }
  else none

/-! ## The coordinator -/

/-- What the action still does once its warning has returned. -/
inductive AfterWarning where
  | release
  | reserved (lease : ℕ) (run : StagingRun)
  | completed (lease : ℕ) (result : FileStagingBatchResult) (completeBatch : Bool)

/-- The call, callback or timer the action waits for. -/
inductive PowerPhase where
  | idle
  | directConfirming
  | reserving
  | awaitingBatch
  | batchPosted (lease : ℕ) (result : FileStagingBatchResult)
  | confirmingReserved (lease : ℕ) (run : StagingRun)
  | confirmingCompleted (lease : ℕ) (result : FileStagingBatchResult)
  | warning (after : AfterWarning)

inductive LeaseEnd where
  | completed (result : FileStagingBatchResult)
  | released

/-- What a power action was based on besides the outcome of its dialog. -/
inductive PowerBasis where
  | direct
  | reserved (run : StagingRun)
  | completed (result : FileStagingBatchResult)

/-- One run of `invokePowerAction`, with the number of its action. -/
structure PowerRecord where
  number : ℕ
  action : PowerAction
  outcome : PowerActionDialogOutcome
  basis : PowerBasis
  answers : PowerAnswers
  invocation : PowerInvocation

/-- Accepted actions and granted leases are numbered. -/
structure PowerWorld where
  actionActive : Bool := false
  phase : PowerPhase := .idle
  action : PowerAction := .shutdown
  accepted : ℕ := 0
  leases : ℕ := 0
  settled : List (ℕ × LeaseEnd) := []
  records : List PowerRecord := []
  warnings : List (Text × Text) := []
  terminated : Bool := false

inductive ReserveAnswer where
  | granted
  | queued
  | refused (thrown : Thrown)

inductive PowerEvent where
  | execute (action : PowerAction)
  | executeDirectRestart
  | reserveReturns (answer : ReserveAnswer)
  | batchCompleted (result : FileStagingBatchResult) (posted : Bool)
  | timerFires
  | pollStagingPreparation (poll : PollAnswers) (advance : AdvanceAnswers)
  | advanceStaging (answers : AdvanceAnswers)
  | confirmReturns (outcome : Except Thrown PowerActionDialogOutcome) (answers : PowerAnswers)
  | warningReturns (thrown : Option Thrown)

structure PowerActionDialogRequest where
  action : PowerAction
  mode : PowerActionDialogMode := .safe
  completedStagingFailure : Option PowerStagingFailure := none

namespace PowerWorld

/-- The request of the dialog that is open. -/
def dialogRequest (world : PowerWorld) : Option PowerActionDialogRequest :=
  match world.phase with
  | .directConfirming => some { action := .restart, mode := .direct }
  | .confirmingReserved _ _ => some { action := world.action }
  | .confirmingCompleted _ result =>
      some { action := world.action, completedStagingFailure := completedStagingFailure result }
  | _ => none

/-- An action is accepted while no other is active. -/
def accept (action : PowerAction) (phase : PowerPhase) (world : PowerWorld) : PowerWorld :=
  if world.actionActive then world
  else
    { world with
      actionActive := true
      phase := phase
      action := action
      accepted := world.accepted + 1 }

def release (world : PowerWorld) : PowerWorld :=
  { world with actionActive := false, phase := .idle }

def settle (lease : ℕ) (how : LeaseEnd) (world : PowerWorld) : PowerWorld :=
  { world with settled := world.settled ++ [(lease, how)] }

def warn (thrown : Thrown) (mode : PowerActionDialogMode) (after : AfterWarning)
    (world : PowerWorld) : PowerWorld :=
  { world with
    warnings := world.warnings ++ [reportPowerFailure world.action thrown mode]
    phase := .warning after }

/-- The guard of `executeReserved` and the end of its lease. -/
def closeReserved (lease : ℕ) (run : StagingRun) (world : PowerWorld) : PowerWorld :=
  match run.stagingResult with
  | some result =>
      world.settle lease
        (.completed ⟨result, run.stagedEntries, run.stagingCommitResult⟩)
  | none => world.settle lease .released

/-- The guard of `executeWithCompletedStaging` and the end of its lease. -/
def closeCompleted (lease : ℕ) (result : FileStagingBatchResult) (completeBatch : Bool)
    (world : PowerWorld) : PowerWorld :=
  world.settle lease (if completeBatch then .completed result else .released)

def record (outcome : PowerActionDialogOutcome) (basis : PowerBasis) (answers : PowerAnswers)
    (invocation : PowerInvocation) (world : PowerWorld) : PowerWorld :=
  { world with
    records := world.records ++
      [⟨world.accepted, world.action, outcome, basis, answers, invocation⟩]
    terminated := invocation.terminated }

/-- Makes the call; `failed` is the handler around it and `done` what follows. -/
def invoke (control : PreshutdownCommitControl) (outcome : PowerActionDialogOutcome)
    (basis : PowerBasis) (answers : PowerAnswers) (failed : Thrown → PowerWorld → PowerWorld)
    (done : PowerWorld → PowerWorld) (world : PowerWorld) : PowerWorld :=
  let invocation := invokePowerAction control answers world.action
  let called := world.record outcome basis answers invocation
  if invocation.terminated then called
  else
    match invocation.result with
    | .error thrown => failed thrown called
    | .ok () => done called

/-- The rest of `executeDirectRestart`. -/
def directConfirmed (control : PreshutdownCommitControl)
    (outcome : Except Thrown PowerActionDialogOutcome) (answers : PowerAnswers)
    (world : PowerWorld) : PowerWorld :=
  match outcome with
  | .error thrown => world.warn thrown .direct .release
  | .ok .canceled => world.release
  | .ok .directConfirmed =>
      world.invoke control .directConfirmed .direct answers
        (fun thrown called => called.warn thrown .direct .release) release
  | .ok _ =>
      world.warn (logicError "direct restart dialog returned an invalid outcome".toList) .direct
        .release

/-- The rest of `executeReserved`; a lease without a result is completed as skipped after
a direct call. -/
def reservedConfirmed (control : PreshutdownCommitControl) (lease : ℕ) (run : StagingRun)
    (outcome : Except Thrown PowerActionDialogOutcome) (answers : PowerAnswers)
    (world : PowerWorld) : PowerWorld :=
  match outcome with
  | .error thrown => world.warn thrown .safe (.reserved lease run)
  | .ok .canceled => (world.closeReserved lease run).release
  | .ok .canceledAfterStagingFailure => (world.closeReserved lease run).release
  | .ok .directConfirmed =>
      world.invoke control .directConfirmed (.reserved run) answers
        (fun thrown called => called.warn thrown .direct (.reserved lease run))
        (fun called =>
          if run.stagingResult.isNone then
            (called.settle lease (.completed (skippedBatch run.stagedEntries))).release
          else (called.closeReserved lease run).release)
  | .ok outcome =>
      match checkContinuation run.stagingResult outcome with
      | .error thrown => world.warn thrown .safe (.reserved lease run)
      | .ok () =>
          world.invoke control outcome (.reserved run) answers
            (fun thrown called => called.warn thrown .safe (.reserved lease run))
            (fun called => (called.closeReserved lease run).release)

/-- The rest of `executeWithCompletedStaging`. -/
def completedConfirmed (control : PreshutdownCommitControl) (lease : ℕ)
    (result : FileStagingBatchResult) (outcome : Except Thrown PowerActionDialogOutcome)
    (answers : PowerAnswers) (world : PowerWorld) : PowerWorld :=
  match outcome with
  | .error thrown => world.warn thrown .safe (.completed lease result false)
  | .ok .canceled => (world.closeCompleted lease result result.command.completed).release
  | .ok .canceledAfterStagingFailure =>
      (world.closeCompleted lease result result.command.completed).release
  | .ok .directConfirmed =>
      world.invoke control .directConfirmed (.completed result) answers
        (fun thrown called => called.warn thrown .direct (.completed lease result true))
        (fun called => (called.closeCompleted lease result true).release)
  | .ok outcome =>
      match checkContinuation (some result.command) outcome with
      | .error thrown => world.warn thrown .safe (.completed lease result false)
      | .ok () =>
          world.invoke control outcome (.completed result) answers
            (fun thrown called => called.warn thrown .safe (.completed lease result true))
            (fun called => (called.closeCompleted lease result true).release)

/-- A warning that throws inside `executeReserved` is reported once more by `execute`. -/
def warned (after : AfterWarning) (thrown : Option Thrown) (world : PowerWorld) : PowerWorld :=
  match after with
  | .release => world.release
  | .reserved lease run =>
      match thrown with
      | none => (world.closeReserved lease run).release
      | some again => (world.closeReserved lease run).warn again .safe .release
  | .completed lease result completeBatch =>
      (world.closeCompleted lease result completeBatch).release

def reserved (answer : ReserveAnswer) (world : PowerWorld) : PowerWorld :=
  match answer with
  | .granted =>
      { world with
        phase := .confirmingReserved world.leases {}
        leases := world.leases + 1 }
  | .queued => { world with phase := .awaitingBatch }
  | .refused thrown => world.warn thrown .safe .release

/-- The lease comes with the result; it is given back when the timer cannot be posted. -/
def batchCompleted (result : FileStagingBatchResult) (posted : Bool) (world : PowerWorld) :
    PowerWorld :=
  let granted := { world with leases := world.leases + 1 }
  if posted then { granted with phase := .batchPosted world.leases result }
  else (granted.settle world.leases .released).release

/-- An event that the phase does not wait for changes nothing. -/
def step (control : PreshutdownCommitControl) (capability : UwfCapability) (world : PowerWorld)
    (event : PowerEvent) : PowerWorld :=
  if world.terminated then world
  else
    match event, world.phase with
    | .execute action, _ => world.accept action .reserving
    | .executeDirectRestart, _ => world.accept .restart .directConfirming
    | .reserveReturns answer, .reserving => world.reserved answer
    | .batchCompleted result posted, .awaitingBatch => world.batchCompleted result posted
    | .timerFires, .batchPosted lease result =>
        { world with phase := .confirmingCompleted lease result }
    | .pollStagingPreparation poll advance, .confirmingReserved lease run =>
        { world with
          phase := .confirmingReserved lease (run.pollStagingPreparation capability poll advance).2 }
    | .advanceStaging answers, .confirmingReserved lease run =>
        { world with phase := .confirmingReserved lease (run.advanceStaging answers).2 }
    | .confirmReturns outcome answers, .directConfirming =>
        world.directConfirmed control outcome answers
    | .confirmReturns outcome answers, .confirmingReserved lease run =>
        world.reservedConfirmed control lease run outcome answers
    | .confirmReturns outcome answers, .confirmingCompleted lease result =>
        world.completedConfirmed control lease result outcome answers
    | .warningReturns thrown, .warning after => world.warned after thrown
    | _, _ => world

def run (control : PreshutdownCommitControl) (capability : UwfCapability)
    (events : List PowerEvent) : PowerWorld :=
  events.foldl (step control capability) {}

end PowerWorld

end UwfManager
