import UwfManager.Library.StatefulAction
import UwfManager.Staging.FileStagingTask
import UwfManager.Windows.RegistryKeyTree

/-!
# Installing and removing the service of the enhanced mode

The service and its registry keys are changed through a control whose every call may fail.
Where the filter runs, the keys are committed as well; a removal commits their deletion
while the last handle of the service keeps them from going.  The answers of the control and
of the filter are given by the caller and may depend on all calls so far.
-/

namespace UwfManager

open RegKey (RegistryCommitTarget)

/-! ## The results of a commit -/

structure RegistryCommitFailure where
  target : RegistryCommitTarget
  detail : Text

/-- What is recorded of a target whose operation threw. -/
def RegistryCommitFailure.ofThrown (target : RegistryCommitTarget) (thrown : Thrown) :
    RegistryCommitFailure where
  target := target
  detail :=
    match thrown with
    | .standard error => error.what
    | .other => "non-standard exception".toList

structure RegistryCommitResult where
  attempted : ℕ := 0
  committed : ℕ := 0
  skipped : ℕ := 0
  failures : List RegistryCommitFailure := []

namespace RegistryCommitResult

def succeeded (result : RegistryCommitResult) : Bool := result.failures.isEmpty

def recordFailure (target : RegistryCommitTarget) (thrown : Thrown)
    (result : RegistryCommitResult) : RegistryCommitResult :=
  { result with failures := result.failures ++ [.ofThrown target thrown] }

/-- `summarizeFailures`: four failures at most are listed. -/
def summarizeFailures (result : RegistryCommitResult) : Text :=
  if result.succeeded then []
  else
    (toString result.failures.length).toList ++ " registry operation(s) failed.".toList ++
      (result.failures.take 4).flatMap fun failure =>
        '\n' :: failure.target.key ++ ": ".toList ++ failure.detail

end RegistryCommitResult

/-! ## The calls -/

/-- `RemovalState`; only a service that was marked by this call comes with a barrier. -/
inductive RemovalState where
  | absent
  | alreadyMarkedForDeletion
  | markedForDeletion
  deriving DecidableEq, Repr

inductive ServiceCall where
  | openSession
  | readFilter
  | readRegistryFilter
  | planRegistryCommit
  | planRegistryDeletion
  | registryTargetExists (target : RegistryCommitTarget)
  | commitRegistry (target : RegistryCommitTarget)
  | commitRegistryDeletion (target : RegistryCommitTarget)
  | installAndStart
  | start
  | stopAndMarkForDeletion
  | releaseBarrier
  | deleteRegistryRemnants
  | query

/-- What each call answers after the calls so far. -/
structure ServiceAnswers (Status : Type) where
  openSession : List ServiceCall → Except Thrown Unit
  currentEnabled : List ServiceCall → Except Thrown Bool
  readRegistryFilter : List ServiceCall → Except Thrown Unit
  planRegistryCommit : List ServiceCall → Except Thrown (List RegistryCommitTarget)
  planRegistryDeletion : List ServiceCall → Except Thrown (List RegistryCommitTarget)
  registryTargetExists : RegistryCommitTarget → List ServiceCall → Except Thrown Bool
  commitRegistry : RegistryCommitTarget → List ServiceCall → Except Thrown Unit
  commitRegistryDeletion : RegistryCommitTarget → List ServiceCall → Except Thrown Unit
  installAndStart : List ServiceCall → Except Thrown Unit
  start : List ServiceCall → Except Thrown Unit
  stopAndMarkForDeletion : List ServiceCall → Except Thrown RemovalState
  deleteRegistryRemnants : List ServiceCall → Except Thrown Unit
  query : List ServiceCall → Except Thrown Status

abbrev ServiceAction := StatefulAction Thrown (List ServiceCall)

namespace ServiceAction

def perform {A : Type} (call : ServiceCall) (answer : List ServiceCall → Except Thrown A) :
    ServiceAction A := fun calls => (answer calls, calls ++ [call])

/-- A handler for everything the action throws. -/
def caught {A : Type} (handler : Thrown → A) (action : ServiceAction A) : ServiceAction A :=
  fun calls =>
    match action calls with
    | (.ok value, calls) => (.ok value, calls)
    | (.error thrown, calls) => (.ok (handler thrown), calls)

section Perform

variable {A B : Type} {call : ServiceCall} {answer : List ServiceCall → Except Thrown A}
  {next : A → ServiceAction B} {calls : List ServiceCall}

theorem perform_bind_of_ok {value : A} (hanswer : answer calls = .ok value) :
    (perform call answer >>= next) calls = next value (calls ++ [call]) := by
  refine StatefulAction.bind_of_ok ?_
  rw [perform, hanswer]

theorem perform_bind_of_error {thrown : Thrown} (hanswer : answer calls = .error thrown) :
    (perform call answer >>= next) calls = (.error thrown, calls ++ [call]) := by
  refine StatefulAction.bind_of_error ?_
  rw [perform, hanswer]

end Perform

theorem caught_returns {A : Type} (handler : Thrown → A) (action : ServiceAction A)
    (calls : List ServiceCall) :
    ∃ value, caught handler action calls = (.ok value, (action calls).2) := by
  rw [caught]
  rcases action calls with ⟨thrown | value, after⟩
  · exact ⟨handler thrown, rfl⟩
  · exact ⟨value, rfl⟩

end ServiceAction

open ServiceAction

/-! ## `RegistryTreeCommitter` -/

namespace RegistryTreeCommitter

variable {Status : Type} (answers : ServiceAnswers Status)

/-- Commits one target after the other; a failure is recorded and the next one is taken. -/
def commitTargets (call : RegistryCommitTarget → ServiceCall)
    (answer : RegistryCommitTarget → List ServiceCall → Except Thrown Unit) :
    List RegistryCommitTarget → RegistryCommitResult → ServiceAction RegistryCommitResult
  | [], result => pure result
  | target :: rest, result => fun calls =>
      let after := calls ++ [call target]
      match answer target calls with
      | .ok () =>
          commitTargets call answer rest { result with committed := result.committed + 1 } after
      | .error thrown =>
          commitTargets call answer rest (result.recordFailure target thrown) after

def commit (targets : List RegistryCommitTarget) : ServiceAction RegistryCommitResult :=
  if targets.isEmpty then pure { attempted := targets.length }
  else do
    perform .readRegistryFilter answers.readRegistryFilter
    commitTargets .commitRegistry answers.commitRegistry targets { attempted := targets.length }

/-- Asks for every target whether it exists, and collects those that do. -/
def probeTargets :
    List RegistryCommitTarget → RegistryCommitResult × List RegistryCommitTarget →
    ServiceAction (RegistryCommitResult × List RegistryCommitTarget)
  | [], probed => pure probed
  | target :: rest, (result, existing) => fun calls =>
      let after := calls ++ [.registryTargetExists target]
      match answers.registryTargetExists target calls with
      | .ok true => probeTargets rest (result, existing ++ [target]) after
      | .ok false =>
          probeTargets rest ({ result with skipped := result.skipped + 1 }, existing) after
      | .error thrown => probeTargets rest (result.recordFailure target thrown, existing) after

def commitDeletion (targets : List RegistryCommitTarget) : ServiceAction RegistryCommitResult := do
  let (result, existing) ← probeTargets answers targets ({ attempted := targets.length }, [])
  if existing.isEmpty then pure result
  else do
    perform .readRegistryFilter answers.readRegistryFilter
    commitTargets .commitRegistryDeletion answers.commitRegistryDeletion existing result

end RegistryTreeCommitter

/-! ## `EnhancedModeOperations` -/

structure EnhancedModeChangeResult (Status : Type) where
  status : Status
  persistenceWarning : Text

namespace EnhancedModeOperations

variable {Status : Type} (answers : ServiceAnswers Status) (capability : UwfCapability)

/-- The warning that stands for an exception. -/
def warningOf : Thrown → Text
  | .standard error => error.what
  | .other => "The operation failed with an unknown error.".toList

def persistInstallation : ServiceAction Text :=
  if capability ≠ .available then pure []
  else
    caught warningOf do
      perform .openSession answers.openSession
      let enabled ← perform .readFilter answers.currentEnabled
      if !enabled then pure []
      else do
        perform .openSession answers.openSession
        let targets ← perform .planRegistryCommit answers.planRegistryCommit
        let result ← RegistryTreeCommitter.commit answers targets
        pure result.summarizeFailures

def prepareRemovalPersistence : ServiceAction (Option (List RegistryCommitTarget)) :=
  if capability ≠ .available then pure none
  else do
    perform .openSession answers.openSession
    let enabled ← perform .readFilter answers.currentEnabled
    if !enabled then pure none
    else do
      let targets ← perform .planRegistryDeletion answers.planRegistryDeletion
      pure (some targets)

def persistRemoval (deletionPlan : List RegistryCommitTarget) : ServiceAction Text :=
  if deletionPlan.isEmpty then pure []
  else
    caught warningOf do
      perform .openSession answers.openSession
      let result ← RegistryTreeCommitter.commitDeletion answers deletionPlan
      pure result.summarizeFailures

def status : ServiceAction Status := perform .query answers.query

def enable : ServiceAction (EnhancedModeChangeResult Status) := do
  perform .installAndStart answers.installAndStart
  let warning ← persistInstallation answers capability
  let status ← status answers
  pure { status := status, persistenceWarning := warning }

def start : ServiceAction (EnhancedModeChangeResult Status) := do
  perform .start answers.start
  let status ← status answers
  pure { status := status, persistenceWarning := [] }

/-- The destructor of the barrier cannot fail. -/
def releaseBarrier (state : RemovalState) : ServiceAction Unit := fun calls =>
  (.ok (), if state = .markedForDeletion then calls ++ [.releaseBarrier] else calls)

/-- What is left of a service that does not exist may be deleted where nothing was planned. -/
def cleanRemnants (plan : Option (List RegistryCommitTarget)) (state : RemovalState)
    (warning : Text) : ServiceAction Text :=
  if plan.isNone && state = .absent then
    caught warningOf do
      perform .deleteRegistryRemnants answers.deleteRegistryRemnants
      pure warning
  else pure warning

def persistPlan : Option (List RegistryCommitTarget) → ServiceAction Text
  | none => pure []
  | some plan => persistRemoval answers plan

def disable : ServiceAction (EnhancedModeChangeResult Status) := do
  let plan ← prepareRemovalPersistence answers capability
  let state ← perform .stopAndMarkForDeletion answers.stopAndMarkForDeletion
  let warning ← persistPlan answers plan
  releaseBarrier state
  let warning ← cleanRemnants answers plan state warning
  let status ← status answers
  pure { status := status, persistenceWarning := warning }

end EnhancedModeOperations

end UwfManager
