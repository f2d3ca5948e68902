import UwfManager.Commit.CommitBatch
import UwfManager.Commit.ObservedNodes
import UwfManager.Paths.PathExclusionIndex
import UwfManager.Uwf.UwfProvider

/-!
# The backend of a commit

The backend prepares a plan and executes its targets.  A folder or a key is not deleted on
the word of the plan: it is read once more, and it is deleted only if nothing is in it but
values that the plan has recorded.  Other programs may change the tree at any time, so that
all calls are functions of a state of which nothing is known.
-/

namespace UwfManager

variable {W : Type*} (qt : Qt)

/-! ## What the backend calls -/

/-- The exceptions that a commit tells apart, with the numbers they carry. -/
inductive CommitThrown where
  | provider (returnValue : UInt32) (what : Text)
  | writeOutcome (hresult : UInt32) (what : Text)
  | wmi (hresult : UInt32) (what : Text)
  | standard (what : Text)
  | other
  deriving DecidableEq

def Thrown.commitThrown : Thrown → CommitThrown
  | .standard error => .standard error.what
  | .other => .other

/-- The calls of a preparation. -/
structure PreparationPorts (W : Type*) where
  wmi : WmiOperations W
  source : TraversalSource W
  volumeForPath : Text → StatefulAction Thrown W Text

/-- The calls of an execution; its reads are not stopped. -/
structure ExecutionPorts (W : Type*) where
  inspect : CommitNode → StatefulAction Thrown W (Option CommitNode)
  read : CommitNode → W → ReadOutcome × W
  existing : CommitNode → StatefulAction Thrown W Bool
  invokeMethod : Text → Text → WmiRow → StatefulAction CommitThrown W Unit

/-! ## The preparation -/

/-- A source that skips what the exclusions cover. -/
def exclusionAwareSource (source : TraversalSource W) (exclusions : List Text) (registry : Bool) :
    TraversalSource W where
  inspect node state :=
    let hit := (PathExclusionIndex.ofExclusions qt exclusions).covering qt node.path
    if hit.isEmpty then source.inspect node state
    else
      (.ok (some { node with
        skippedReason :=
          (if registry then "This key is in the registry exclusion list.\nExclusion: ".toList
          else "This path is in the file exclusion list.\nExclusion: ".toList) ++ hit }), state)
  read := source.read
  stopRequested := source.stopRequested
  stop_inspect node state hstop := by
    dsimp only
    rw [apply_ite Prod.snd]
    split_ifs
    · exact source.stop_inspect node state hstop
    · exact hstop
    · exact hstop
  stop_read := source.stop_read

/-- The folded paths and names of the values that the records hold. -/
def knownValuesOf (records : List CommitTraversalRecord) : List (Text × Text) :=
  (records.filter fun record =>
    record.status = .succeeded ∧ record.node.kind = .registryValue).map fun record =>
      (qt.toCaseFolded record.node.path, qt.toCaseFolded record.node.valueName)

/-- The fields of the backend that its calls change. -/
structure PreparedCommitBackend where
  volume : Option VolumeRow := none
  registry : Option RegistryFilterRow := none
  knownValues : List (Text × Text) := []

def CommitTargetKind.inRegistry : CommitTargetKind → Bool
  | .registryKey | .registryValue => true
  | .file | .folder => false

def standardError (what : Text) : Thrown := .standard ⟨what, none⟩

def liftFailure {α : Type} (action : StatefulAction WmiFailure W α) : StatefulAction Thrown W α :=
  action.mapError fun failure => .standard failure.error

def readRegistryFilters (wmi : WmiOperations W) :
    StatefulAction WmiFailure W (List RegistryFilterRow) := do
  let rows ← wmi.queryInstances "SELECT * FROM UWF_RegistryFilter".toList
  .ofExcept (decodeSessions "UWF_RegistryFilter" decodeRegistryFilter (·.currentSession) rows)

namespace PreparedCommitBackend

/-- Finds the row that the targets belong to, and the exclusions that apply to them. -/
def locate (ports : PreparationPorts W) (snapshot : UwfSnapshot) (request : CommitRequest)
    (backend : PreparedCommitBackend) :
    StatefulAction Thrown W (PreparedCommitBackend × List Text) :=
  if request.target.kind.inRegistry then do
    let hit := Paths.findCoveringExclusion qt snapshot.current.registryExclusions
      request.target.path
    if !hit.isEmpty then
      .fail (standardError
        ("This key is in the registry exclusion list.\nExclusion: ".toList ++ hit))
    else
      let rows ← liftFailure (readRegistryFilters ports.wmi)
      match rows.find? (·.currentSession) with
      | none =>
          .fail (standardError "No current-session registry filter record found.".toList)
      | some row =>
          return ({ backend with registry := some row }, snapshot.current.registryExclusions)
  else do
    let driveLetter ← ports.volumeForPath request.target.path
    if driveLetter.isEmpty then
      .fail (standardError
        "The path has no drive letter; cannot identify the target volume.".toList)
    else
      let rows ← liftFailure (readVolumes ports.wmi)
      match rows.find? fun row => row.currentSession && row.driveLetter == driveLetter with
      | none =>
          .fail (standardError ("No current-session record found for volume ".toList ++
            driveLetter ++ ".".toList))
      | some row =>
          let exclusions := (snapshot.current.fileExclusions.lookup row.volumeName).getD []
          let hit := Paths.findCoveringExclusion qt exclusions request.target.path
          if !hit.isEmpty then
            .fail (standardError
              ("This path is in the file exclusion list.\nExclusion: ".toList ++ hit))
          else return ({ backend with volume := some row }, exclusions)

/-- What a preparation returns or throws, the backend and the state it leaves; `none` if the
fuel of the walk does not last. -/
def prepare (ports : PreparationPorts W) (snapshot : UwfSnapshot) (fuel : ℕ)
    (request : CommitRequest) (previous : CommitPlan) (backend : PreparedCommitBackend)
    (state : W) : Option (Except Thrown CommitPlan × PreparedCommitBackend × W) :=
  if ports.source.stopRequested state then
    some (.ok { previous with canceled := true }, backend, state)
  else
    match locate qt ports snapshot request backend state with
    | (.error thrown, state) => some (.error thrown, backend, state)
    | (.ok (located, exclusions), state) =>
        (prepareCommitFrom qt
          (exclusionAwareSource qt ports.source exclusions request.target.kind.inRegistry)
          fuel request previous state).map fun prepared =>
            (.ok prepared.1.plan,
              { located with knownValues := knownValuesOf qt prepared.1.plan.records },
              prepared.2)

/-! ## The execution -/

/-- What a child found in a container has to say against its deletion. -/
def violationOf (backend : PreparedCommitBackend) (target : CommitNode) (violation : Text)
    (child : CommitNode) : Text :=
  if target.kind = .folder then
    "The folder is not empty; unprocessed content has been retained.".toList
  else if child.kind = .registryKey then
    "The registry key still has subkeys; unprocessed content has been retained.".toList
  else if (qt.toCaseFolded target.path, qt.toCaseFolded child.valueName) ∉ backend.knownValues then
    "The registry key has new values; unprocessed content has been retained.".toList
  else violation

def verifyDeletionContents (ports : ExecutionPorts W) (backend : PreparedCommitBackend)
    (target : CommitNode) : StatefulAction CommitThrown W Unit := fun state =>
  if !target.kind.container then (.ok (), state)
  else
    let outcome := ports.read target state
    match outcome.1.result with
    | .error thrown => (.error thrown.commitThrown, outcome.2)
    | .ok error =>
        let violation := outcome.1.published.foldl (violationOf qt backend target) []
        if !error.isEmpty then (.error (.standard error), outcome.2)
        else if !violation.isEmpty then (.error (.standard violation), outcome.2)
        else (.ok (), outcome.2)

def liftWmi {α : Type} (action : StatefulAction WmiThrown W α) : StatefulAction CommitThrown W α :=
  action.mapError fun
    | .failure cause => .standard cause.what
    | .other => .other

def deletionInput (registryKey valueName : Text) : WmiRow :=
  [("RegistryKey".toList, .string registryKey), ("ValueName".toList, .string valueName)]

/-- A method of the volume on a path within it. -/
def invokeVolume (ports : ExecutionPorts W) (row : VolumeRow) (operation method : String)
    (fileName : Text) : StatefulAction CommitThrown W Unit := do
  liftWmi (requirePath row.path operation "UWF_Volume")
  let normalized ← liftWmi (normalizeVolumePath row fileName)
  ports.invokeMethod row.path method.toList (fileInput normalized)

def invokeRegistry (ports : ExecutionPorts W) (row : RegistryFilterRow) (operation method : String)
    (registryKey valueName : Text) : StatefulAction CommitThrown W Unit := do
  liftWmi (requirePath row.path operation "UWF_RegistryFilter")
  ports.invokeMethod row.path method.toList (deletionInput registryKey valueName)

/-- The row that the preparation has found.  The source dereferences it unchecked; a plan of
such targets is prepared only with the row. -/
def requireRow {Row : Type} : Option Row → StatefulAction CommitThrown W Row
  | none => .fail .other
  | some row => pure row

def unexpectedType (target observed : CommitNode) : Bool :=
  observed.kind ≠ target.kind || !observed.skippedReason.isEmpty

/-- Commits one target. -/
def commit (ports : ExecutionPorts W) (backend : PreparedCommitBackend)
    (operation : CommitOperation) (target : CommitNode) : StatefulAction CommitThrown W Unit :=
  if !target.kind.inRegistry then do
    let observed ← (ports.inspect target).mapError Thrown.commitThrown
    if observed.all (unexpectedType target) then
      .fail (.standard
        ("The selected path does not exist or is not the expected file type:\n".toList ++
          target.path))
    else
      match operation with
      | .persist => do
          let row ← requireRow backend.volume
          invokeVolume ports row "commit UWF file" "CommitFile" target.path
      | .deleteAndPersist => do
          -- Content that appeared after the preparation must not be removed with its folder.
          verifyDeletionContents qt ports backend target
          let row ← requireRow backend.volume
          invokeVolume ports row "commit UWF file deletion" "CommitFileDeletion" target.path
  else
    match operation with
    | .persist => do
        let row ← requireRow backend.registry
        invokeRegistry ports row "commit UWF registry value" "CommitRegistry" target.path
          target.valueName
    | .deleteAndPersist => do
        verifyDeletionContents qt ports backend target
        let row ← requireRow backend.registry
        invokeRegistry ports row "commit UWF registry deletion" "CommitRegistryDeletion"
          target.path target.valueName

end PreparedCommitBackend

/-! ## One target -/

structure ExistenceObservation where
  value : Option Bool
  failure : Text := []

def observeExistence (existsFn : StatefulAction Thrown W Bool) (state : W) :
    ExistenceObservation × W :=
  match existsFn state with
  | (.ok value, state) => (⟨some value, []⟩, state)
  | (.error (.standard error), state) => (⟨none, error.what⟩, state)
  | (.error .other, state) =>
      (⟨none, "Unknown error while reading the target state.".toList⟩, state)

/-- The variables of `executeCommitTarget` after the call. -/
structure CommitAttempt where
  hresult : UInt32 := 0
  returnValue : UInt32 := 0
  failureDetail : Text := []
  authoritativeFailure : Text := []
  succeeded : Bool := false
  mayHaveTakenEffect : Bool := false

def CommitAttempt.of : Except CommitThrown Unit → CommitAttempt
  | .ok () => { succeeded := true }
  | .error (.provider returnValue what) => { returnValue := returnValue, failureDetail := what }
  | .error (.writeOutcome hresult what) =>
      { hresult := hresult, mayHaveTakenEffect := true, failureDetail := what }
  | .error (.wmi hresult what) => { hresult := hresult, failureDetail := what }
  | .error (.standard what) => { failureDetail := what }
  | .error .other => { failureDetail := "The operation failed with an unknown error.".toList }

/-- The reread decides what an accepted or uncertain deletion has done, and never overrides a
refusal. -/
def CommitAttempt.reconcile (attempt : CommitAttempt) (after : ExistenceObservation) :
    CommitAttempt :=
  match after.value with
  | none =>
      if attempt.succeeded || attempt.mayHaveTakenEffect then
        { attempt with
          succeeded := false
          authoritativeFailure :=
            "The operation result could not be confirmed because the target state reread failed: ".toList
              ++ after.failure }
      else attempt
  | some remains =>
      if attempt.mayHaveTakenEffect && !remains then { attempt with succeeded := true }
      else if attempt.succeeded && remains then
        { attempt with
          succeeded := false
          authoritativeFailure := "The provider accepted the deletion, but the target still exists after the authoritative reread.".toList }
      else attempt

def CommitAttempt.result (attempt : CommitAttempt) (existedBefore existsAfter : Option Bool) :
    CommitTargetResult :=
  { existedBefore := existedBefore
    existsAfter := existsAfter
    targetAlreadyAbsent := false
    hresult := attempt.hresult
    returnValue := attempt.returnValue
    failureDetail := attempt.failureDetail
    authoritativeFailure := attempt.authoritativeFailure
    succeeded := attempt.succeeded }

/-- Commits a target; with a probe, its existence is observed before and after. -/
def executeCommitTarget (commitOne : StatefulAction CommitThrown W Unit)
    (existsFn : Option (StatefulAction Thrown W Bool)) (state : W) : CommitTargetResult × W :=
  match existsFn with
  | none =>
      let called := commitOne state
      ((CommitAttempt.of called.1).result none none, called.2)
  | some probe =>
      let before := observeExistence probe state
      if before.1.value = some false then
        ({ existedBefore := some false, existsAfter := some false, targetAlreadyAbsent := true },
          before.2)
      else
        let called := commitOne before.2
        let after := observeExistence probe called.2
        (((CommitAttempt.of called.1).reconcile after.1).result before.1.value after.1.value,
          after.2)

namespace PreparedCommitBackend

def execute (ports : ExecutionPorts W) (backend : PreparedCommitBackend) (node : CommitNode)
    (operation : CommitOperation) (state : W) : CommitTargetResult × W :=
  executeCommitTarget (commit qt ports backend operation node)
    (match operation with
      | .persist => none
      | .deleteAndPersist => some (ports.existing node)) state

end PreparedCommitBackend

/-! ## What an execution calls -/

inductive PortCall (W : Type*) where
  | listed (node : CommitNode) (outcome : ReadOutcome) (after : W)
  | invoked (path method : Text) (inputs : WmiRow) (before : W)

/-- A state with the calls made so far. -/
structure Recorded (W : Type*) where
  world : W
  calls : List (PortCall W) := []

def recordedAction {ε : Type} {α : Type} (action : StatefulAction ε W α) :
    StatefulAction ε (Recorded W) α := fun state =>
  let answer := action state.world
  (answer.1, { state with world := answer.2 })

/-- The same calls, of which the reads and the invocations are recorded. -/
def ExecutionPorts.recorded (ports : ExecutionPorts W) : ExecutionPorts (Recorded W) where
  inspect node := recordedAction (ports.inspect node)
  existing node := recordedAction (ports.existing node)
  read node state :=
    let answer := ports.read node state.world
    (answer.1, ⟨answer.2, state.calls ++ [.listed node answer.1 answer.2]⟩)
  invokeMethod path method inputs state :=
    let answer := ports.invokeMethod path method inputs state.world
    (answer.1, ⟨answer.2, state.calls ++ [.invoked path method inputs state.world]⟩)

/-- A target that was executed, with the calls. -/
structure ExecutedTarget (W : Type*) where
  node : CommitNode
  operation : CommitOperation
  calls : List (PortCall W)

structure ExecutionLog (W : Type*) where
  world : W
  executions : List (ExecutedTarget W) := []

/-- The backend as the worker calls it.  Whatever else happens to the tree between two targets
happens in the question whether to go on. -/
def PreparedCommitBackend.execution (ports : ExecutionPorts W) (backend : PreparedCommitBackend)
    (goesOn : ℕ → W → Bool × W) : CommitExecution (ExecutionLog W) where
  execute node operation log :=
    let answer := backend.execute qt ports.recorded node operation ⟨log.world, []⟩
    (.ok answer.1, ⟨answer.2.world, log.executions ++ [⟨node, operation, answer.2.calls⟩]⟩)
  continueAt processed log :=
    let answer := goesOn processed log.world
    (answer.1, { log with world := answer.2 })

/-! ## The guard -/

/-- What may be deleted with its container: the values of a key that the plan has recorded.
Nothing is deleted with a folder. -/
def MayGoWith (plan : CommitPlan) (parent child : CommitNode) : Prop :=
  parent.kind = .registryKey ∧ child.kind ≠ .registryKey ∧
    ∃ record ∈ plan.records, record.status = .succeeded ∧ record.node.kind = .registryValue ∧
      qt.toCaseFolded record.node.path = qt.toCaseFolded parent.path ∧
      qt.toCaseFolded record.node.valueName = qt.toCaseFolded child.valueName

def isDeletion (method : Text) : Bool :=
  method == "CommitFileDeletion".toList || method == "CommitRegistryDeletion".toList

/-- A path within the volume: without its drive letter, which is that of the volume. -/
def VolumeRow.Within (row : VolumeRow) (path within : Text) : Prop :=
  ((Drive.split path).letter = [] ∧ within = path) ∨
    ((Drive.split path).letter = row.driveLetter ∧ within = (Drive.split path).rest)

/-- The call deletes this node: it goes to the row that the preparation has found, and its
inputs name the node. -/
def PreparedCommitBackend.Deletes (backend : PreparedCommitBackend) (node : CommitNode)
    (path method : Text) (inputs : WmiRow) : Prop :=
  (node.kind.inRegistry = true ∧ method = "CommitRegistryDeletion".toList ∧
    (∃ row, backend.registry = some row ∧ path = row.path) ∧
    inputs = deletionInput node.path node.valueName) ∨
  (node.kind.inRegistry = false ∧ method = "CommitFileDeletion".toList ∧
    ∃ row within, backend.volume = some row ∧ path = row.path ∧ row.Within node.path within ∧
      inputs = fileInput within)

/-- Every deletion deletes the target.  That of a container directly follows a complete listing
of it, in the state that the listing has left, and neither the listing nor that state has
anything in the container but what may go with it. -/
def ExecutedTarget.GuardedBy (plan : CommitPlan) (backend : PreparedCommitBackend)
    (contents : W → CommitNode → List CommitNode) (executed : ExecutedTarget W) : Prop :=
  ∀ earlier later path method inputs before,
    executed.calls = earlier ++ .invoked path method inputs before :: later →
    isDeletion method = true →
    backend.Deletes executed.node path method inputs ∧
      (executed.node.kind.container = true →
        ∃ preceding outcome, earlier = preceding ++ [.listed executed.node outcome before] ∧
          outcome.result = .ok [] ∧
          (∀ child ∈ outcome.published, MayGoWith qt plan executed.node child) ∧
          ∀ child ∈ contents before executed.node, MayGoWith qt plan executed.node child)

/-- A read that reports no error has published whatever the state it leaves has in the node. -/
def ExecutionPorts.Lists (ports : ExecutionPorts W) (contents : W → CommitNode → List CommitNode) :
    Prop :=
  ∀ node state, (ports.read node state).1.result = .ok [] →
    contents (ports.read node state).2 node ⊆ (ports.read node state).1.published

variable {qt}

/-! ### The calls of an action -/

/-- From a state with this world, the action makes such calls. -/
def Calls {ε α : Type} (action : StatefulAction ε (Recorded W) α)
    (shape : W → List (PortCall W) → Prop) : Prop :=
  ∀ state, ∃ calls, (action state).2.calls = state.calls ++ calls ∧ shape state.world calls

section Calls

variable {ε α β : Type} {shape : W → List (PortCall W) → Prop}

theorem Calls.fail {error : ε} (hnil : ∀ world, shape world []) :
    Calls (StatefulAction.fail error : StatefulAction ε (Recorded W) α) shape :=
  fun _ => ⟨[], (List.append_nil _).symm, hnil _⟩

/-- An action that changes nothing adds no call. -/
theorem Calls.bind {action : StatefulAction ε (Recorded W) α}
    {next : α → StatefulAction ε (Recorded W) β} (haction : action.Keeps id)
    (hnil : ∀ world, shape world [])
    (hnext : ∀ value state, (action state).1 = .ok value → Calls (next value) shape) :
    Calls (action >>= next) shape := by
  intro state
  have hstart : (action state).2 = state := haction state
  change ∃ calls, (StatefulAction.bind action next state).2.calls = _ ∧ _
  rw [StatefulAction.bind]
  cases hanswer : action state with
  | mk answer after =>
      rw [hanswer] at hstart
      dsimp only at hstart
      subst hstart
      cases answer with
      | error error => exact ⟨[], (List.append_nil _).symm, hnil _⟩
      | ok value => exact hnext value after (by rw [hanswer]) after

/-- An action may change the world without a call. -/
theorem Calls.bind_silent {action : StatefulAction ε (Recorded W) α}
    {next : α → StatefulAction ε (Recorded W) β} {calling : List (PortCall W) → Prop}
    (haction : action.Keeps Recorded.calls) (hnil : calling [])
    (hnext : ∀ value, Calls (next value) fun _ => calling) :
    Calls (action >>= next) fun _ => calling := by
  intro state
  have hstart := haction state
  change ∃ calls, (StatefulAction.bind action next state).2.calls = _ ∧ _
  rw [StatefulAction.bind]
  revert hstart
  rcases action state with ⟨error | value, after⟩
  · exact fun hstart => ⟨[], hstart.trans (List.append_nil _).symm, hnil⟩
  · intro hstart
    obtain ⟨calls, hcalls, hshape⟩ := hnext value after
    exact ⟨calls, hcalls.trans (congrArg (· ++ calls) hstart), hshape⟩

theorem recordedAction_keeps (action : StatefulAction ε W α) :
    (recordedAction action).Keeps Recorded.calls := fun _ => rfl

end Calls

namespace PreparedCommitBackend

variable {ports : ExecutionPorts W} {backend : PreparedCommitBackend}

/-- At most one such call, in the world at the start. -/
def Invokes (allowed : Text → Text → WmiRow → Prop) (world : W) (calls : List (PortCall W)) :
    Prop :=
  calls = [] ∨ ∃ path method inputs, allowed path method inputs ∧
    calls = [.invoked path method inputs world]

variable {allowed : Text → Text → WmiRow → Prop}

theorem invokeMethod_calls {path method : Text} {inputs : WmiRow}
    (hallowed : allowed path method inputs) :
    Calls (ports.recorded.invokeMethod path method inputs) (Invokes allowed) :=
  fun _ => ⟨_, rfl, .inr ⟨path, method, inputs, hallowed, rfl⟩⟩

theorem requirePath_keeps (path : Text) (operation className : String) :
    (liftWmi (requirePath path operation className : StatefulAction WmiThrown W Unit)).Keeps id := by
  apply StatefulAction.Keeps.mapError
  rw [requirePath]
  split
  · exact StatefulAction.Keeps.fail _
  · exact StatefulAction.Keeps.pure _

theorem normalizeVolumePath_keeps (row : VolumeRow) (fileName : Text) :
    (liftWmi (normalizeVolumePath row fileName : StatefulAction WmiThrown W Text)).Keeps id := by
  apply StatefulAction.Keeps.mapError
  rw [normalizeVolumePath]
  split
  · exact StatefulAction.Keeps.pure _
  · split
    · exact StatefulAction.Keeps.fail _
    · exact StatefulAction.Keeps.pure _

theorem requireRow_keeps {Row : Type} (row : Option Row) :
    (requireRow row : StatefulAction CommitThrown W Row).Keeps id := by
  cases row with
  | none => exact StatefulAction.Keeps.fail _
  | some row => exact StatefulAction.Keeps.pure _

theorem requireRow_eq_ok {Row : Type} {found : Option Row} {row : Row} {state : W}
    (hreturned : ((requireRow found : StatefulAction CommitThrown W Row) state).1 = .ok row) :
    found = some row := by
  cases found with
  | none => cases hreturned
  | some other => exact congrArg some (Except.ok.inj hreturned)

/-- The path that is returned lies within the volume. -/
theorem within_of_normalizeVolumePath {row : VolumeRow} {fileName within : Text} {state : W}
    (hreturned : (liftWmi (normalizeVolumePath row fileName : StatefulAction WmiThrown W Text)
      state).1 = .ok within) : row.Within fileName within := by
  rw [liftWmi, StatefulAction.mapError_ok_iff, normalizeVolumePath] at hreturned
  split_ifs at hreturned with hletter hother
  · exact .inl ⟨List.isEmpty_iff.1 hletter, (Except.ok.inj hreturned).symm⟩
  · cases hreturned
  · exact .inr ⟨not_not.1 hother, (Except.ok.inj hreturned).symm⟩

theorem invokeVolume_calls {row : VolumeRow} {method : String} {fileName : Text}
    (hallowed : ∀ within, row.Within fileName within →
      allowed row.path method.toList (fileInput within)) (operation : String) :
    Calls (invokeVolume ports.recorded row operation method fileName) (Invokes allowed) := by
  apply Calls.bind (requirePath_keeps _ _ _) fun _ => .inl rfl
  intro _ _ _
  apply Calls.bind (normalizeVolumePath_keeps _ _) fun _ => .inl rfl
  intro within _ hwithin
  exact invokeMethod_calls (hallowed within (within_of_normalizeVolumePath hwithin))

theorem invokeRegistry_calls {row : RegistryFilterRow} {method : String}
    {registryKey valueName : Text}
    (hallowed : allowed row.path method.toList (deletionInput registryKey valueName))
    (operation : String) :
    Calls (invokeRegistry ports.recorded row operation method registryKey valueName)
      (Invokes allowed) := by
  apply Calls.bind (requirePath_keeps _ _ _) fun _ => .inl rfl
  intro _ _ _
  exact invokeMethod_calls hallowed

/-- The calls of a commit of this node. -/
inductive CommitCalls (qt : Qt) (ports : ExecutionPorts W) (backend : PreparedCommitBackend)
    (node : CommitNode) : List (PortCall W) → Prop
  | none : CommitCalls qt ports backend node []
  | listed (outcome : ReadOutcome) (after : W) :
      CommitCalls qt ports backend node [.listed node outcome after]
  | plain (path method : Text) (inputs : WmiRow) (before : W)
      (hplain : isDeletion method = true →
        backend.Deletes node path method inputs ∧ node.kind.container = false) :
      CommitCalls qt ports backend node [.invoked path method inputs before]
  | verified (path method : Text) (inputs : WmiRow) (state : W)
      (hdeletes : backend.Deletes node path method inputs)
      (hresult : (ports.read node state).1.result = .ok [])
      (hviolation : (ports.read node state).1.published.foldl (violationOf qt backend node) [] = []) :
      CommitCalls qt ports backend node
        [.listed node (ports.read node state).1 (ports.read node state).2,
          .invoked path method inputs (ports.read node state).2]

theorem Invokes.commitCalls {node : CommitNode} {world : W} {calls : List (PortCall W)}
    (hcalls : Invokes allowed world calls)
    (hplain : ∀ path method inputs, allowed path method inputs → isDeletion method = true →
      backend.Deletes node path method inputs ∧ node.kind.container = false) :
    CommitCalls qt ports backend node calls := by
  rcases hcalls with rfl | ⟨path, method, inputs, hallowed, rfl⟩
  · exact .none
  · exact .plain path method inputs world (hplain path method inputs hallowed)

theorem plain_calls {ε α : Type} {action : StatefulAction ε (Recorded W) α} {node : CommitNode}
    (haction : Calls action (Invokes allowed))
    (hplain : ∀ path method inputs, allowed path method inputs → isDeletion method = true →
      backend.Deletes node path method inputs ∧ node.kind.container = false) :
    Calls action fun _ => CommitCalls qt ports backend node := by
  intro state
  obtain ⟨calls, hcalls, hshape⟩ := haction state
  exact ⟨calls, hcalls, hshape.commitCalls hplain⟩

/-- A method that deletes nothing may be called for a container too. -/
theorem persist_calls {ε α : Type} {action : StatefulAction ε (Recorded W) α} {node : CommitNode}
    (haction : Calls action (Invokes fun _ method _ => isDeletion method = false)) :
    Calls action fun _ => CommitCalls qt ports backend node := by
  apply plain_calls haction
  intro path method inputs hpersist hdeletion
  rw [hpersist] at hdeletion
  cases hdeletion

/-- How a verification ends: without a read, refused after it, or passed after it. -/
inductive Verification (qt : Qt) (ports : ExecutionPorts W) (backend : PreparedCommitBackend)
    (node : CommitNode) (state : W) : Except CommitThrown Unit × W → Prop
  | leaf (hleaf : node.kind.container = false) :
      Verification qt ports backend node state (.ok (), state)
  | refused (thrown : CommitThrown) :
      Verification qt ports backend node state (.error thrown, (ports.read node state).2)
  | passed (hresult : (ports.read node state).1.result = .ok [])
      (hviolation : (ports.read node state).1.published.foldl (violationOf qt backend node) [] = []) :
      Verification qt ports backend node state (.ok (), (ports.read node state).2)

theorem verifyDeletionContents_verification (node : CommitNode) (state : W) :
    Verification qt ports backend node state (verifyDeletionContents qt ports backend node state) := by
  rw [verifyDeletionContents]
  by_cases hcontainer : node.kind.container = true
  · rw [hcontainer, if_neg (show ¬(!true) = true from (by rintro ⟨⟩))]
    dsimp only
    cases hresult : (ports.read node state).1.result with
    | error thrown => exact .refused _
    | ok error =>
        dsimp only
        split_ifs with herror hviolation
        · exact .refused _
        · exact .refused _
        · rw [Bool.not_eq_true', Bool.not_eq_false, List.isEmpty_iff] at herror hviolation
          subst herror
          exact .passed hresult hviolation
  · rw [Bool.eq_false_iff.mpr hcontainer]
    exact .leaf (Bool.eq_false_iff.mpr hcontainer)

/-- After the verification a container was listed, and nothing spoke against its deletion. -/
theorem verified_calls {node : CommitNode}
    {action : StatefulAction CommitThrown (Recorded W) Unit}
    (haction : Calls action (Invokes (backend.Deletes node))) :
    Calls (verifyDeletionContents qt ports.recorded backend node >>= fun _ => action)
      fun _ => CommitCalls qt ports backend node := by
  intro state
  have hverification := @verifyDeletionContents_verification (Recorded W) qt ports.recorded
    backend node state
  change ∃ calls, (StatefulAction.bind _ (fun _ => action) state).2.calls = _ ∧ _
  rw [StatefulAction.bind]
  generalize verifyDeletionContents qt ports.recorded backend node state = verified
    at hverification ⊢
  cases hverification with
  | leaf hleaf =>
      exact plain_calls haction (fun _ _ _ hdeletes _ => ⟨hdeletes, hleaf⟩) state
  | refused thrown => exact ⟨_, rfl, .listed _ _⟩
  | passed hresult hviolation =>
      obtain ⟨calls, hcalls, hinvokes⟩ := haction (ports.recorded.read node state).2
      rcases hinvokes with rfl | ⟨path, method, inputs, hdeletes, rfl⟩
      · exact ⟨_, hcalls.trans (List.append_nil _), .listed _ _⟩
      · exact ⟨_, hcalls.trans (List.append_assoc _ _ _),
          .verified path method inputs state.world hdeletes hresult hviolation⟩

theorem commit_calls (operation : CommitOperation) (node : CommitNode) :
    Calls (commit qt ports.recorded backend operation node)
      fun _ => CommitCalls qt ports backend node := by
  unfold commit
  split
  · next hfile =>
      rw [Bool.not_eq_true'] at hfile
      apply Calls.bind_silent (StatefulAction.Keeps.mapError (recordedAction_keeps _)) .none
      intro observed
      split
      · exact Calls.fail fun _ => .none
      · cases operation with
        | persist =>
            apply Calls.bind (requireRow_keeps _) fun _ => .none
            intro row _ _
            exact persist_calls (invokeVolume_calls (fun _ _ => by decide) _)
        | deleteAndPersist =>
            apply verified_calls
            apply Calls.bind (requireRow_keeps _) fun _ => .inl rfl
            intro row _ hrow
            refine invokeVolume_calls (fun within hwithin => .inr ?_) _
            exact ⟨hfile, rfl, row, within, requireRow_eq_ok hrow, rfl, hwithin, rfl⟩
  · next hregistry =>
      rw [Bool.not_eq_true', Bool.not_eq_false] at hregistry
      cases operation with
      | persist =>
          apply Calls.bind (requireRow_keeps _) fun _ => .none
          intro row _ _
          exact persist_calls (invokeRegistry_calls (by decide) _)
      | deleteAndPersist =>
          apply verified_calls
          apply Calls.bind (requireRow_keeps _) fun _ => .inl rfl
          intro row _ hrow
          refine invokeRegistry_calls (.inl ?_) _
          exact ⟨hregistry, rfl, ⟨row, requireRow_eq_ok hrow, rfl⟩, rfl⟩

theorem observeExistence_calls (probe : StatefulAction Thrown W Bool) (state : Recorded W) :
    (observeExistence (recordedAction probe) state).2.calls = state.calls := by
  have hanswer : recordedAction probe state =
      ((probe state.world).1, { state with world := (probe state.world).2 }) := rfl
  rw [observeExistence, hanswer]
  rcases (probe state.world).1 with (_ | _) | _ <;> rfl

/-- The probes of the existence add nothing to the calls of the commit. -/
theorem execute_calls (node : CommitNode) (operation : CommitOperation) (world : W) :
    CommitCalls qt ports backend node
      (backend.execute qt ports.recorded node operation ⟨world, []⟩).2.calls := by
  unfold execute
  cases operation with
  | persist =>
      obtain ⟨calls, hcalls, hshape⟩ :=
        @commit_calls W qt ports backend .persist node ⟨world, []⟩
      exact hcalls ▸ hshape
  | deleteAndPersist =>
      have hprobe := observeExistence_calls (ports.existing node)
      rw [executeCommitTarget]
      change CommitCalls qt ports backend node (ite _ _ _ : _ × Recorded W).2.calls
      split_ifs with habsent
      · exact (hprobe ⟨world, []⟩).symm ▸ .none
      · obtain ⟨calls, hcalls, hshape⟩ := @commit_calls W qt ports backend .deleteAndPersist node
          (observeExistence (recordedAction (ports.existing node)) ⟨world, []⟩).2
        rw [hprobe, List.nil_append] at hcalls
        exact ((hprobe _).trans hcalls) ▸ hshape

/-! ### What the calls mean -/

theorem mem_knownValuesOf {records : List CommitTraversalRecord} {path name : Text} :
    (path, name) ∈ knownValuesOf qt records ↔
      ∃ record ∈ records, record.status = .succeeded ∧ record.node.kind = .registryValue ∧
        qt.toCaseFolded record.node.path = path ∧ qt.toCaseFolded record.node.valueName = name := by
  simp only [knownValuesOf, List.mem_map, List.mem_filter, decide_eq_true_eq, Prod.mk.injEq,
    and_assoc]

theorem violationOf_ne_nil {node : CommitNode} {violation : Text} (child : CommitNode)
    (hviolation : violation ≠ []) : violationOf qt backend node violation child ≠ [] := by
  rw [violationOf]
  split_ifs
  · exact (by decide)
  · exact (by decide)
  · exact hviolation
  · exact (by decide)

/-- If nothing speaks against the deletion, no child does. -/
theorem foldl_violationOf {node : CommitNode} {children : List CommitNode} {violation : Text}
    (hnone : children.foldl (violationOf qt backend node) violation = []) :
    violation = [] ∧ ∀ child ∈ children, violationOf qt backend node [] child = [] := by
  induction children generalizing violation with
  | nil => exact ⟨hnone, by rintro _ ⟨⟩⟩
  | cons child rest ih =>
      obtain ⟨hchild, hrest⟩ := ih hnone
      have hviolation : violation = [] := by
        by_contra hviolation
        exact violationOf_ne_nil child hviolation hchild
      subst hviolation
      exact ⟨rfl, List.forall_mem_cons.mpr ⟨hchild, hrest⟩⟩

theorem mayGoWith_of_violationOf {plan : CommitPlan} {node child : CommitNode}
    (hknown : backend.knownValues = knownValuesOf qt plan.records)
    (hcontainer : node.kind.container = true)
    (hchild : violationOf qt backend node [] child = []) : MayGoWith qt plan node child := by
  rw [violationOf] at hchild
  split_ifs at hchild with hfolder hsubkey hvalue
  · exact absurd hchild (by decide)
  · exact absurd hchild (by decide)
  · have hkey : node.kind = .registryKey := by
      cases hkind : node.kind with
      | registryKey => rfl
      | folder => exact absurd hkind hfolder
      | file => rw [hkind] at hcontainer; cases hcontainer
      | registryValue => rw [hkind] at hcontainer; cases hcontainer
    rw [hknown] at hvalue
    exact ⟨hkey, hsubkey, mem_knownValuesOf.mp hvalue⟩
  · exact absurd hchild (by decide)

theorem CommitCalls.guardedBy {plan : CommitPlan} {contents : W → CommitNode → List CommitNode}
    (hlists : ports.Lists contents)
    (hknown : backend.knownValues = knownValuesOf qt plan.records) {node : CommitNode}
    {operation : CommitOperation} {calls : List (PortCall W)}
    (hcalls : CommitCalls qt ports backend node calls) :
    (⟨node, operation, calls⟩ : ExecutedTarget W).GuardedBy qt plan backend contents := by
  intro earlier later path method inputs before hsplit hdeletion
  dsimp only at hsplit ⊢
  cases hcalls with
  | none => cases earlier <;> cases hsplit
  | listed outcome after =>
      cases earlier with
      | nil => cases hsplit
      | cons call rest => cases rest <;> cases hsplit
  | plain path' method' inputs' before' hplain =>
      cases earlier with
      | nil =>
          cases hsplit
          obtain ⟨hdeletes, hleaf⟩ := hplain hdeletion
          refine ⟨hdeletes, fun hcontainer => ?_⟩
          rw [hleaf] at hcontainer
          cases hcontainer
      | cons call rest => cases rest <;> cases hsplit
  | verified path' method' inputs' state hdeletes hresult hviolation =>
      rcases earlier with _ | ⟨call, _ | ⟨next, rest⟩⟩
      · cases hsplit
      · cases hsplit
        refine ⟨hdeletes, fun hcontainer => ?_⟩
        have hpublished : ∀ child ∈ (ports.read node state).1.published,
            MayGoWith qt plan node child :=
          fun child hchild => mayGoWith_of_violationOf hknown hcontainer
            ((foldl_violationOf hviolation).2 child hchild)
        exact ⟨[], (ports.read node state).1, rfl, hresult, hpublished,
          fun child hchild => hpublished child (hlists node state hresult hchild)⟩
      · cases rest <;> cases hsplit

/-! ### A whole run -/

/-- A preparation leaves the values that its plan has recorded, unless the plan has no target. -/
theorem prepare_known {ports : PreparationPorts W} {snapshot : UwfSnapshot} {fuel : ℕ}
    {request : CommitRequest} {previous plan : CommitPlan} {backend prepared : PreparedCommitBackend}
    {state after : W}
    (hprepared : prepare qt ports snapshot fuel request previous backend state =
      some (.ok plan, prepared, after)) :
    plan.canceled = true ∨ prepared.knownValues = knownValuesOf qt plan.records := by
  rw [prepare] at hprepared
  split at hprepared
  · cases hprepared
    exact .inl rfl
  · split at hprepared
    · cases hprepared
    · obtain ⟨walked, hwalked, hresult⟩ := Option.map_eq_some_iff.mp hprepared
      cases hresult
      exact .inr rfl

end PreparedCommitBackend

/-- What every call of a batch keeps, a run keeps. -/
theorem executeCommitBatch_keeps {σ : Type*} {calls : CommitExecution σ} {invariant : σ → Prop}
    (hexecute : ∀ node operation state, invariant state →
      invariant (calls.execute node operation state).2)
    (hcontinue : ∀ processed state, invariant state →
      invariant (calls.continueAt processed state).2)
    (operation : CommitOperation) (total : ℤ) (targets : List CommitNode) (processed : ℕ)
    {state : BatchState σ} (hstate : invariant state.world) :
    invariant (executeCommitBatch calls operation total targets processed state).2.world := by
  induction targets generalizing processed state with
  | nil => exact hstate
  | cons target rest ih =>
      have hgoes := hcontinue processed state.world hstate
      have hcalled := hexecute target operation _ hgoes
      rw [executeCommitBatch]
      split
      · exact hgoes
      · dsimp only
        cases hanswer : (calls.execute target operation
            (calls.continueAt processed state.world).2).1 with
        | error thrown => exact hcalled
        | ok result => exact ih (processed + 1) hcalled

theorem runBatch_keeps {σ : Type*} {calls : CommitExecution σ} {invariant : σ → Prop}
    (hexecute : ∀ node operation state, invariant state →
      invariant (calls.execute node operation state).2)
    (hcontinue : ∀ processed state, invariant state →
      invariant (calls.continueAt processed state).2)
    (operation : CommitOperation) (total : ℤ) (targets : List CommitNode) {world : σ}
    (hworld : invariant world) :
    invariant (runBatch calls operation total targets world).2.world :=
  @executeCommitBatch_keeps σ calls invariant hexecute hcontinue operation total
    (targets.take total.toNat) 0 { world := world } hworld

/-- All executions of the log were guarded. -/
def ExecutionLog.Guarded (qt : Qt) (plan : CommitPlan) (backend : PreparedCommitBackend)
    (contents : W → CommitNode → List CommitNode) (log : ExecutionLog W) : Prop :=
  ∀ executed ∈ log.executions, executed.GuardedBy qt plan backend contents

theorem execution_guarded {ports : ExecutionPorts W} {plan : CommitPlan}
    {backend : PreparedCommitBackend} {contents : W → CommitNode → List CommitNode}
    (hlists : ports.Lists contents) (hknown : backend.knownValues = knownValuesOf qt plan.records)
    (goesOn : ℕ → W → Bool × W) (node : CommitNode) (operation : CommitOperation)
    (log : ExecutionLog W) (hlog : log.Guarded qt plan backend contents) :
    ((backend.execution qt ports goesOn).execute node operation log).2.Guarded qt plan backend
      contents := by
  intro executed hexecuted
  rcases List.mem_append.mp hexecuted with hold | hnew
  · exact hlog executed hold
  · rw [List.mem_singleton.mp hnew]
    exact (PreparedCommitBackend.execute_calls node operation log.world).guardedBy hlists hknown

/-- In every run over the targets of a prepared plan, whatever happens to the tree meanwhile, a
deletion deletes the target it is made for, and a container only right after a complete listing
of it that holds nothing but what may go with it. -/
theorem commit_deletions_guarded {preparation : PreparationPorts W} {ports : ExecutionPorts W}
    {snapshot : UwfSnapshot} {fuel : ℕ} {request : CommitRequest} {previous plan : CommitPlan}
    {backend prepared : PreparedCommitBackend} {state after : W}
    (hprepared : backend.prepare qt preparation snapshot fuel request previous state =
      some (.ok plan, prepared, after))
    {contents : W → CommitNode → List CommitNode} (hlists : ports.Lists contents)
    (goesOn : ℕ → W → Bool × W) (operation : CommitOperation) (later : W) :
    (commitTargets (prepared.execution qt ports goesOn) operation (plan.targets qt)
      ⟨later, []⟩).2.world.Guarded qt plan prepared contents := by
  rw [commitTargets]
  rcases PreparedCommitBackend.prepare_known hprepared with hcanceled | hknown
  · have htargets : plan.targets qt = [] := by
      rw [CommitPlan.targets, if_pos hcanceled]
    rw [htargets, runBatch, List.take_nil, executeCommitBatch]
    rintro _ ⟨⟩
  · apply @runBatch_keeps _ _ (ExecutionLog.Guarded qt plan prepared contents)
    · exact execution_guarded hlists hknown goesOn
    · exact fun _ log hlog => hlog
    · rintro _ ⟨⟩

namespace KeyExample

def key : CommitNode := { kind := .registryKey, path := "HKLM\\K".toList }

def value : CommitNode := { kind := .registryValue, path := "HKLM\\K".toList, valueName := "v".toList }

/-- A key with one value. -/
def children (node : CommitNode) : List CommitNode := if node = key then [value] else []

def source : TraversalSource Unit where
  inspect node state := (.ok (some node), state)
  read node state := (⟨children node, .ok []⟩, state)
  stopRequested _ := false
  stop_inspect _ _ hstop := hstop
  stop_read _ _ hstop := hstop

def filterRow : WmiRow :=
  [("__PATH".toList, .string "path".toList), ("CurrentSession".toList, .bool true),
    ("PersistDomainSecretKey".toList, .bool false), ("PersistTSCAL".toList, .bool false)]

def wmi : WmiOperations Unit where
  ensureConnected := pure ()
  queryInstances _ := pure [filterRow]
  mountedLetters _ := pure []
  getObject _ := pure []
  callMethodRead _ _ _ := pure ⟨[]⟩
  invokeMethod _ _ _ := pure ()
  putInstance _ _ _ := pure ()

def preparation : PreparationPorts Unit where
  wmi := wmi
  source := source
  volumeForPath _ := pure []

def ports : ExecutionPorts Unit where
  inspect node := pure (some node)
  read node state := (⟨children node, .ok []⟩, state)
  existing _ := pure true
  invokeMethod _ _ _ := pure ()

def request : CommitRequest := { operation := .deleteAndPersist, target := key }

def outcome : Option (Except Thrown CommitPlan × PreparedCommitBackend × Unit) :=
  PreparedCommitBackend.prepare Qt.ascii preparation {} 5 request { request := request } {} ()

def plan : CommitPlan :=
  { request := request
    records := [{ node := value, attempts := 1 }, { node := key, attempts := 1 }] }

def backend : PreparedCommitBackend :=
  { registry := some ⟨"path".toList, true, false, false⟩
    knownValues := [("hklm\\k".toList, "v".toList)] }

theorem outcome_eq : outcome = some (.ok plan, backend, ()) := rfl

/-- The key is deleted with the value that the plan has recorded. -/
theorem commit_deletions_guarded_key :
    let log := (commitTargets (backend.execution Qt.ascii ports fun _ world => (true, world))
      .deleteAndPersist (plan.targets Qt.ascii) ⟨(), []⟩).2.world
    log.executions.map (fun executed => executed.calls.length) = [2] ∧
      log.Guarded Qt.ascii plan backend fun _ node => children node :=
  ⟨by decide +kernel, commit_deletions_guarded outcome_eq (fun _ _ _ => List.Subset.refl _) _ _ ()⟩

end KeyExample

end UwfManager
