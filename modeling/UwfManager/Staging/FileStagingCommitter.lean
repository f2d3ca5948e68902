import UwfManager.Commit.ObservedNodes
import UwfManager.Configuration.ConfigurationExecutor
import UwfManager.Library.StatefulAction
import UwfManager.Paths.PathExclusionIndex
import UwfManager.Staging.FileStagingEditor
import UwfManager.Staging.FileStagingTask

/-!
# The commit of staged files

A batch first freezes the volumes and their exclusions, then scans the staged
files and directories, and commits the files that the scan has found one by one.
Whatever goes wrong with one item is recorded and the batch goes on.
-/

namespace UwfManager

/-! ## What the batch calls -/

/-- What `commitFile` throws: a `WmiException`, with or without the code `NotFound`, another
`std::exception` or anything else. -/
inductive CommitFileThrown where
  | wmi (notFound : Bool) (what : Text)
  | standard (what : Text)
  | other
  deriving DecidableEq

/-- The file system and the provider, with a state of any kind. -/
structure CommitterCalls (σ : Type*) where
  files : TraversalSource σ
  nodeExists : CommitNode → σ → Except Thrown Bool × σ
  volumeForPath : Text → σ → Except Thrown Text × σ
  session : σ → Except Thrown Unit × σ
  commitFile : VolumeRow → Text → σ → Except CommitFileThrown Unit × σ

/-- The answers of the provider that govern the whole batch. -/
structure VolumeSnapshot where
  readAll : Except Thrown (List VolumeRow)
  getExclusions : VolumeRow → Except Thrown (List Text)

variable (qt : Qt) {σ : Type*} (calls : CommitterCalls σ)

/-- Excluded nodes are skipped without asking the file system. -/
def stagingTraversalSource (files : TraversalSource σ) (exclusions : PathExclusionIndex) :
    TraversalSource σ where
  inspect target state :=
    if exclusions.contains qt target.path then
      (.ok (some { target with skippedReason := exclusions.covering qt target.path }), state)
    else files.inspect target state
  read := files.read
  stopRequested := files.stopRequested
  stop_inspect target state hstop := by
    split_ifs
    · exact hstop
    · exact files.stop_inspect target state hstop
  stop_read := files.stop_read

def absoluteExclusionPath (volume : VolumeRow) (fileName : Text) : Text :=
  let path := Paths.normalize qt fileName
  if path.head? = some '\\' then volume.driveLetter ++ path else path

/-! ## `prepareScan` -/

structure FileStagingScanPlan where
  entries : List FileStagingEntry := []
  fileExclusions : List Text := []
  volumes : List VolumeRow := []
  skippedEntries : ℕ := 0
  failures : List FileStagingCommitFailure := []

/-- The absolute exclusions of the volumes that are protected in the current session. -/
def readExclusions (snapshot : VolumeSnapshot) : List VolumeRow → Except Thrown (List Text)
  | [] => .ok []
  | volume :: volumes =>
      if volume.currentSession && volume.isProtected then do
        let fileNames ← snapshot.getExclusions volume
        let others ← readExclusions snapshot volumes
        return (fileNames.filter fun fileName => !fileName.isEmpty).map
          (absoluteExclusionPath qt volume) ++ others
      else readExclusions snapshot volumes

/-- `findBySession` for the volume of the current session with a drive letter -/
def findCurrentVolume (volumes : List VolumeRow) (driveLetter : Text) : Option VolumeRow :=
  volumes.find? fun row => row.currentSession && row.driveLetter == driveLetter

def isProtectedVolume (volumes : List VolumeRow) (driveLetter : Text) : Bool :=
  (findCurrentVolume volumes driveLetter).any (·.isProtected)

/-- Takes an entry into the plan, or tells why it is not scanned. -/
def planEntry (exclusions : PathExclusionIndex) (plan : FileStagingScanPlan)
    (entry : FileStagingEntry) (driveLetter : Except StandardError Text) : FileStagingScanPlan :=
  match driveLetter with
  | .error error =>
      { plan with
        failures := plan.failures ++ [⟨entry.path, .missingDriveLetter, error.what⟩] }
  | .ok driveLetter =>
      if driveLetter.isEmpty then
        { plan with failures := plan.failures ++ [⟨entry.path, .missingDriveLetter, []⟩] }
      else if !isProtectedVolume plan.volumes driveLetter || exclusions.contains qt entry.path then
        { plan with skippedEntries := plan.skippedEntries + 1 }
      else { plan with entries := plan.entries ++ [entry] }

/-- Catches a `std::exception`; anything else goes on. -/
def catchStandard {A : Type} (call : σ → Except Thrown A × σ) :
    StatefulAction Thrown σ (Except StandardError A) := fun state =>
  match call state with
  | (.ok value, state) => (.ok (.ok value), state)
  | (.error (.standard error), state) => (.ok (.error error), state)
  | (.error .other, state) => (.error .other, state)

def planEntries (exclusions : PathExclusionIndex) :
    List FileStagingEntry → FileStagingScanPlan → StatefulAction Thrown σ FileStagingScanPlan
  | [], plan => pure plan
  | entry :: entries, plan => do
      let driveLetter ← catchStandard (calls.volumeForPath entry.path)
      planEntries exclusions entries (planEntry qt exclusions plan entry driveLetter)

def prepareScan (snapshot : VolumeSnapshot) (entries : List FileStagingEntry) :
    StatefulAction Thrown σ FileStagingScanPlan := do
  let candidates := entries.filter fun entry => isAbsoluteLocalFileStagingPath entry.path
  let rejected := entries.filter fun entry => !isAbsoluteLocalFileStagingPath entry.path
  let failures : List FileStagingCommitFailure :=
    rejected.map fun entry => ⟨entry.path, .invalidPath, []⟩
  if candidates.isEmpty then return { failures := failures }
  else do
    let volumes ← .ofExcept snapshot.readAll
    let fileExclusions ← .ofExcept (readExclusions qt snapshot volumes)
    planEntries qt calls (.ofExclusions qt fileExclusions) candidates
      { fileExclusions := fileExclusions, volumes := volumes, failures := failures }

/-! ## `scan` -/

structure FileStagingScan where
  files : List Text := []
  fileExclusions : List Text := []
  volumes : List VolumeRow := []
  skippedFiles : ℕ := 0
  skippedEntries : ℕ := 0
  failures : List FileStagingCommitFailure := []

/-- The scan with its variables and the state of the file system. -/
structure ScanState (σ : Type*) where
  scan : FileStagingScan
  seenTargets : List Text := []
  announcedTargets : List Text := []
  source : σ

/-- A scan ends in what a call throws, or the fuel of a walk does not last. -/
inductive ScanThrown where
  | thrown (thrown : Thrown)
  | unfinished
  deriving DecidableEq

namespace ScanState

def recordFailure (state : ScanState σ) (path : Text) (kind : FileStagingCommitFailureKind)
    (detail : Text) : ScanState σ :=
  { state with scan := { state.scan with
      failures := state.scan.failures ++ [⟨path, kind, detail⟩] } }

/-- `discoveredProgress` counts the announced targets. -/
def announceFile (state : ScanState σ) (path : Text) : ScanState σ :=
  if state.announcedTargets.contains (Paths.identity qt path) then state
  else { state with announcedTargets := Paths.identity qt path :: state.announcedTargets }

def addFile (state : ScanState σ) (rawPath : Text) (excluded : Bool) : ScanState σ :=
  let path := Paths.normalize qt rawPath
  let identity := qt.toCaseFolded path
  if state.seenTargets.contains identity then state
  else
    let announced := announceFile qt { state with seenTargets := identity :: state.seenTargets } path
    if excluded then
      { announced with scan := { announced.scan with
          skippedFiles := announced.scan.skippedFiles + 1 } }
    else { announced with scan := { announced.scan with files := announced.scan.files ++ [path] } }

/-- Takes over what a walk has found at one node. -/
def takeRecord (exclusions : PathExclusionIndex) (state : ScanState σ)
    (record : CommitTraversalRecord) : ScanState σ :=
  if record.status = .succeeded ∧ record.node.kind = .file then
    state.addFile qt record.node.path false
  else if record.status = .skipped ∧ exclusions.contains qt record.node.path = true then
    if record.node.kind = .file then state.addFile qt record.node.path true else state
  else if record.status = .failed then
    match calls.nodeExists record.node state.source with
    -- what has disappeared meanwhile is skipped without a word
    | (.ok false, source) => { state with source := source }
    | (_, source) =>
        { state with source := source }.recordFailure record.node.path
          .directoryEnumerationFailed record.error
  else state

/-- The progress that a walk publishes announces each file that it has counted. -/
def announceProgress (state : ScanState σ) (published : List CommitTraversalProgress) :
    ScanState σ :=
  (published.foldl (fun (seen : ScanState σ × ℤ) progress =>
    (if progress.items > seen.2 then seen.1.announceFile qt progress.path else seen.1,
      progress.items)) (state, 0)).1

def scanDirectory (exclusions : PathExclusionIndex) (fuel : ℕ) (state : ScanState σ)
    (path : Text) : Except ScanThrown Unit × ScanState σ :=
  match prepareCommitFrom qt (stagingTraversalSource qt calls.files exclusions) fuel
      { target := { kind := .folder, path := path } }
      { request := { target := { kind := .folder, path := path } } } state.source with
  | none => (.error .unfinished, state)
  | some (prepared, source) =>
      (.ok (), prepared.plan.records.foldl (takeRecord qt calls exclusions)
        ({ state with source := source }.announceProgress qt prepared.published))

/-- The checks of a staged directory before it is walked. -/
def checkDirectory (state : ScanState σ) (path : Text) :
    Except ScanThrown Bool × ScanState σ :=
  match catchStandard (calls.volumeForPath path) state.source with
  | (.error thrown, source) => (.error (.thrown thrown), { state with source := source })
  | (.ok (.error error), source) =>
      (.ok false, { state with source := source }.recordFailure path .missingDriveLetter error.what)
  | (.ok (.ok driveLetter), source) =>
      if driveLetter.isEmpty then
        (.ok false, { state with source := source }.recordFailure path .missingDriveLetter [])
      else if Paths.isDriveRoot path then
        (.ok false, { state with source := source }.recordFailure path .volumeRoot [])
      else (.ok true, { state with source := source })

def scanNode (exclusions : PathExclusionIndex) (fuel : ℕ) (kind : FileStagingKind) (path : Text)
    (node : CommitNode) (state : ScanState σ) : Except ScanThrown Unit × ScanState σ :=
  match kind with
  | .file =>
      if node.kind ≠ .file then (.ok (), state.recordFailure path .fileTypeChanged [])
      else (.ok (), state.addFile qt path (exclusions.contains qt path))
  | .directory =>
      if node.kind ≠ .folder then (.ok (), state.recordFailure path .directoryTypeChanged [])
      else
        match state.checkDirectory calls path with
        | (.error thrown, state) => (.error thrown, state)
        | (.ok false, state) => (.ok (), state)
        | (.ok true, state) => state.scanDirectory qt calls exclusions fuel path

def scanEntry (exclusions : PathExclusionIndex) (fuel : ℕ) (entry : FileStagingEntry)
    (state : ScanState σ) : Except ScanThrown Unit × ScanState σ :=
  let path := Paths.normalize qt entry.path
  match catchStandard (calls.files.inspect { path := path }) state.source with
  | (.error thrown, source) => (.error (.thrown thrown), { state with source := source })
  | (.ok (.error error), source) =>
      (.ok (), { state with source := source }.recordFailure path .pathInspectionFailed error.what)
  | (.ok (.ok none), source) =>
      (.ok (), { state with
        source := source
        scan := { state.scan with skippedEntries := state.scan.skippedEntries + 1 } })
  | (.ok (.ok (some node)), source) =>
      let state := { state with source := source }
      if !node.skippedReason.isEmpty then
        (.ok (), state.recordFailure path .reparsePoint [])
      else state.scanNode qt calls exclusions fuel entry.kind path node

/-- A stop that is requested during an entry is seen before the next one. -/
def scanEntries (exclusions : PathExclusionIndex) (fuel : ℕ) :
    List FileStagingEntry → ScanState σ → Except ScanThrown Unit × ScanState σ
  | [], state => (.ok (), state)
  | entry :: entries, state =>
      if calls.files.stopRequested state.source then (.ok (), state)
      else
        match state.scanEntry qt calls exclusions fuel entry with
        | (.error thrown, state) => (.error thrown, state)
        | (.ok (), state) => scanEntries exclusions fuel entries state

end ScanState

/-- The scan of a plan, with at most `fuel` rounds for each directory. -/
def scan (fuel : ℕ) (plan : FileStagingScanPlan) (source : σ) :
    Except ScanThrown Unit × ScanState σ :=
  ScanState.scanEntries qt calls (.ofExclusions qt plan.fileExclusions) fuel plan.entries
    { scan :=
        { fileExclusions := plan.fileExclusions
          volumes := plan.volumes
          skippedEntries := plan.skippedEntries
          failures := plan.failures }
      source := source }

/-! ## `prepare` -/

structure FileStagingCommitPlan where
  files : List Text
  volumes : List VolumeRow
  discoveredFiles : ℕ
  skippedFiles : ℕ
  skippedEntries : ℕ
  failures : List FileStagingCommitFailure

/-- The files that were skipped during the scan count as discovered. -/
def FileStagingScan.prepare (scan : FileStagingScan) : FileStagingCommitPlan where
  files := scan.files
  volumes := scan.volumes
  discoveredFiles := scan.files.length + scan.skippedFiles
  skippedFiles := scan.skippedFiles
  skippedEntries := scan.skippedEntries
  failures := scan.failures

/-! ## `FileStagingCommitOperation` -/

/-- The result as it is counted; the counters are `std::size_t`. -/
structure FileStagingTally where
  discoveredFiles : ℕ
  committedFiles : ℕ := 0
  skippedFiles : ℕ
  skippedEntries : ℕ
  failures : List FileStagingCommitFailure

def FileStagingTally.result (tally : FileStagingTally) : FileStagingCommitResult where
  discoveredFiles := UInt64.ofNat tally.discoveredFiles
  committedFiles := UInt64.ofNat tally.committedFiles
  skippedFiles := UInt64.ofNat tally.skippedFiles
  skippedEntries := UInt64.ofNat tally.skippedEntries
  failures := tally.failures

/-- A call of `commitFile`, with what `volumeForPath` has answered for the path before. -/
structure CommitCall where
  driveLetter : Text
  volume : VolumeRow
  path : Text
  deriving DecidableEq

structure FileStagingCommitOperation (σ : Type*) where
  files : List Text
  volumes : List VolumeRow
  nextFile : ℕ := 0
  tally : FileStagingTally
  commitCalls : List CommitCall := []
  source : σ

def beginCommit (plan : FileStagingCommitPlan) (source : σ) : FileStagingCommitOperation σ where
  files := plan.files
  volumes := plan.volumes
  tally :=
    { discoveredFiles := plan.discoveredFiles
      skippedFiles := plan.skippedFiles
      skippedEntries := plan.skippedEntries
      failures := plan.failures }
  source := source

namespace FileStagingCommitOperation

def finished (operation : FileStagingCommitOperation σ) : Bool :=
  operation.nextFile ≥ operation.files.length

def recordFailure (operation : FileStagingCommitOperation σ) (path : Text)
    (kind : FileStagingCommitFailureKind) (detail : Text) : FileStagingCommitOperation σ :=
  { operation with tally := { operation.tally with
      failures := operation.tally.failures ++ [⟨path, kind, detail⟩] } }

def skipFile (operation : FileStagingCommitOperation σ) : FileStagingCommitOperation σ :=
  { operation with tally := { operation.tally with
      skippedFiles := operation.tally.skippedFiles + 1 } }

/-- Calls the provider for a file of a protected volume. -/
def commit (operation : FileStagingCommitOperation σ) (driveLetter path : Text)
    (volume : VolumeRow) : Except Thrown Unit × FileStagingCommitOperation σ :=
  match calls.session operation.source with
  | (.error thrown, source) => (.error thrown, { operation with source := source })
  | (.ok (), source) =>
      let committed := calls.commitFile volume path source
      let operation : FileStagingCommitOperation σ := { operation with
        source := committed.2
        commitCalls := operation.commitCalls ++ [⟨driveLetter, volume, path⟩] }
      match committed.1 with
      | .ok () =>
          (.ok (), { operation with tally := { operation.tally with
            committedFiles := operation.tally.committedFiles + 1 } })
      -- a file that is not in the overlay needs no commit
      | .error (.wmi true _) => (.ok (), operation.skipFile)
      | .error (.wmi false what) => (.ok (), operation.recordFailure path .providerFailure what)
      | .error (.standard what) => (.ok (), operation.recordFailure path .providerFailure what)
      | .error .other => (.ok (), operation.recordFailure path .unknownFailure [])

/-- Looks for the volume of a file once more. -/
def commitOnVolume (operation : FileStagingCommitOperation σ) (path : Text) :
    Except Thrown Unit × FileStagingCommitOperation σ :=
  match catchStandard (calls.volumeForPath path) operation.source with
  | (.error thrown, source) => (.error thrown, { operation with source := source })
  | (.ok (.error error), source) =>
      (.ok (), { operation with source := source }.recordFailure path .missingDriveLetter error.what)
  | (.ok (.ok driveLetter), source) =>
      let operation := { operation with source := source }
      match findCurrentVolume operation.volumes driveLetter with
      | none => (.ok (), operation.skipFile)
      | some volume =>
          if !volume.isProtected then (.ok (), operation.skipFile)
          else operation.commit calls driveLetter path volume

/-- Treats one file. -/
def process (operation : FileStagingCommitOperation σ) (path : Text) :
    Except Thrown Unit × FileStagingCommitOperation σ :=
  match catchStandard (calls.files.inspect { path := path }) operation.source with
  | (.error thrown, source) => (.error thrown, { operation with source := source })
  | (.ok (.error error), source) =>
      (.ok (), { operation with source := source }.recordFailure path .pathInspectionFailed
        error.what)
  | (.ok (.ok none), source) => (.ok (), { operation with source := source }.skipFile)
  | (.ok (.ok (some node)), source) =>
      let operation := { operation with source := source }
      if !node.skippedReason.isEmpty then
        (.ok (), operation.recordFailure path .reparsePoint [])
      else if node.kind ≠ .file then
        (.ok (), operation.recordFailure path .fileTypeChanged [])
      else operation.commitOnVolume calls path

def advanceCompleted : Thrown :=
  .standard ⟨"cannot advance a completed file staging operation".toList, none⟩

def takeUp (operation : FileStagingCommitOperation σ) : FileStagingCommitOperation σ :=
  { operation with nextFile := operation.nextFile + 1 }

/-- Treats the next file and returns its path. -/
def advance (operation : FileStagingCommitOperation σ) :
    Except Thrown Text × FileStagingCommitOperation σ :=
  match operation.files[operation.nextFile]? with
  | none => (.error advanceCompleted, operation)
  | some path =>
      match operation.takeUp.process calls path with
      | (.ok (), operation) => (.ok path, operation)
      | (.error thrown, operation) => (.error thrown, operation)

end FileStagingCommitOperation

end UwfManager
