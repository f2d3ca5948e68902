import UwfManager.Staging.FileStagingCoordinator

/-!
# The task behind a staging batch

Preparation and commit run on a worker; the task only looks whether they are
done.  What a look finds is given by the caller.
-/

namespace UwfManager

inductive UwfCapability where
  | available
  | unavailable
  deriving DecidableEq, Repr

def FileStagingCommitResult.succeeded (result : FileStagingCommitResult) : Bool :=
  result.failures.isEmpty

def toApplicationCommandResult (result : FileStagingCommitResult) (failureDetail : Text) :
    ApplicationCommandResult where
  outcome := if result.succeeded then .succeeded else .completedWithFailures
  discoveredFiles := result.discoveredFiles
  committedFiles := result.committedFiles
  skippedFiles := result.skippedFiles
  skippedEntries := result.skippedEntries
  failedFiles := UInt64.ofNat result.failures.length
  detail := if result.succeeded then [] else failureDetail

namespace FileStagingTask

inductive State where
  | notStarted
  | preparing
  | ready
  | committing
  | completed
  deriving DecidableEq, Repr

end FileStagingTask

structure FileStagingTaskProgress where
  processedFiles : UInt64 := 0
  totalFiles : UInt64 := 0
  currentPath : Text := []
  deriving DecidableEq

/-- A task over entries that were read before. -/
structure FileStagingTask where
  entries : List FileStagingEntry
  capability : UwfCapability
  state : FileStagingTask.State := .notStarted
  progress : FileStagingTaskProgress := {}
  result : Option FileStagingCommitResult := none
  failure : Option Thrown := none

/-- What a look at the preparing worker finds; `terminal` leaves nothing to commit. -/
inductive PreparationWork where
  | notLaunched (thrown : Thrown)
  | running
  | failed (thrown : Thrown)
  | terminal (result : FileStagingCommitResult)
  | ready (totalFiles : UInt64)

inductive CommitWork where
  | notLaunched (thrown : Thrown)
  | running (progress : FileStagingTaskProgress)
  | failed (thrown : Thrown)
  | finished (progress : FileStagingTaskProgress) (result : FileStagingCommitResult)

def logicError (what : Text) : Thrown := .standard { what := what }

namespace FileStagingTask

variable (task : FileStagingTask)

def preparationFinished : Bool :=
  task.state = .ready || task.state = .committing || task.state = .completed

def finished : Bool := task.state = .completed

/-- The first failure is kept and thrown again by every later call. -/
def recordFailure {α : Type} (thrown : Thrown) : Except Thrown α × FileStagingTask :=
  (.error thrown, if task.failure.isSome then task else { task with failure := some thrown })

def pollPreparation (work : PreparationWork) : Except Thrown Bool × FileStagingTask :=
  match task.failure with
  | some thrown => (.error thrown, task)
  | none =>
      if task.preparationFinished then (.ok true, task)
      else if task.state = .notStarted then
        if task.entries.isEmpty || task.capability ≠ .available then
          (.ok true, { task with
            result := some { skippedEntries := UInt64.ofNat task.entries.length }
            state := .completed })
        else
          match work with
          | .notLaunched thrown => task.recordFailure thrown
          | _ => (.ok false, { task with state := .preparing })
      else
        match work with
        | .failed thrown => task.recordFailure thrown
        | .terminal result => (.ok true, { task with result := some result, state := .completed })
        | .ready totalFiles =>
            (.ok true, { task with
              progress := { task.progress with totalFiles := totalFiles }, state := .ready })
        | _ => (.ok false, task)

def totalFiles : Except Thrown UInt64 :=
  if task.preparationFinished then .ok task.progress.totalFiles
  else .error (logicError "file staging preparation is incomplete".toList)

/-- The first call launches the commit. -/
def advance (work : CommitWork) : Except Thrown FileStagingTaskProgress × FileStagingTask :=
  match task.failure with
  | some thrown => (.error thrown, task)
  | none =>
      if !task.preparationFinished then
        task.recordFailure (logicError "file staging preparation is incomplete".toList)
      else if task.finished then
        task.recordFailure (logicError "cannot advance a completed file staging task".toList)
      else
        let committing := { task with state := .committing }
        match work with
        | .notLaunched thrown =>
            if task.state = .ready then task.recordFailure thrown else (.ok task.progress, committing)
        | .failed thrown => committing.recordFailure thrown
        | .running progress => (.ok progress, { committing with progress := progress })
        | .finished progress result =>
            (.ok progress,
              { committing with progress := progress, result := some result, state := .completed })

def getResult : Except Thrown FileStagingCommitResult :=
  match task.result with
  | some result =>
      if task.finished then .ok result
      else .error (logicError "file staging task result is not final".toList)
  | none => .error (logicError "file staging task result is not final".toList)

variable {task}

theorem getResult_eq_ok_iff {result : FileStagingCommitResult} :
    task.getResult = .ok result ↔ task.finished = true ∧ task.result = some result := by
  rw [getResult]
  cases hresult : task.result with
  | none => simp
  | some kept =>
      dsimp only
      split_ifs with hfinished
      · simp [hfinished]
      · simp [hfinished]

/-- A finished task stays as it is while it is polled. -/
theorem pollPreparation_of_finished (hfinished : task.finished = true) (work : PreparationWork) :
    (task.pollPreparation work).2 = task := by
  have hprepared : task.preparationFinished = true := by
    rw [finished, decide_eq_true_eq] at hfinished
    simp [preparationFinished, hfinished]
  unfold pollPreparation
  cases task.failure with
  | some thrown => rfl
  | none =>
      dsimp only
      rw [if_pos hprepared]

end FileStagingTask

end UwfManager
