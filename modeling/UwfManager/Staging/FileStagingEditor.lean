import UwfManager.Commit.CommitPlan
import UwfManager.Staging.FileStagingConflictPolicy

/-!
# The editor of the file staging list of a volume

Each volume has an editor, and all editors share one draft.  An editor shows
the entries that lie on its volume, checks what is added against the file
system and against the exclusions of the volume, and tells the conflict policy
of the volume what is staged.
-/

namespace UwfManager

/-! ## `FileStagingPath.h` -/

/-- `std::filesystem::path::is_absolute` on Windows: a drive with a separator,
or the name of a host. -/
def isAbsolutePath : Text → Bool
  | first :: second :: third :: _ =>
      Drive.isAsciiLetter first && second == ':' && Paths.isSeparator third ||
        Paths.isSeparator first && Paths.isSeparator second && !Paths.isSeparator third
  | _ => false

def isAbsoluteLocalFileStagingPath (path : Text) : Bool :=
  isAbsolutePath path && !"\\\\.\\".toList.isPrefixOf path && !"\\\\?\\".toList.isPrefixOf path &&
    !(Drive.split path).letter.isEmpty

/-! ## The file system -/

/-- What the traversal of the system answers.  A provider that throws reports a
`std::exception`. -/
structure CommitTraversalSource where
  inspect : CommitNode → Except StandardError (Option CommitNode)
  volumeForPath : Text → Except StandardError Text

inductive FileStagingRejectionKind where
  | nonLocalPath
  | inspectionFailed
  | reparsePoint
  | wrongType
  | missingDrive
  | wrongDrive
  | resolutionFailed
  | driveRoot
  | exclusionConflict
  deriving DecidableEq, Repr

structure FileStagingRejection where
  kind : FileStagingRejectionKind
  detail : Text := []
  deriving DecidableEq

inductive FileStagingSignal where
  | entriesChanged
  | storageUnavailable
  | storageAvailabilityChanged
  | updateFailed (error : Text)
  | pathRejected (rejection : FileStagingRejection)
  deriving DecidableEq

structure FileStagingEditor where
  driveLetter : Text
  entries : List FileStagingEntry := []
  storageError : Text := []
  storageAvailable : Bool := true
  deriving DecidableEq

/-- What an operation of an editor can change, and the signals it has emitted. -/
structure FileStagingPage (S : Type*) where
  editor : FileStagingEditor
  conflicts : Option FileStagingConflictPolicy
  draft : FileStagingDraft
  stored : S
  signals : List FileStagingSignal := []

variable {S : Type*} (qt : Qt)

def sortEntries (entries : List FileStagingEntry) : List FileStagingEntry :=
  entries.insertionSort fun first second =>
    first.path.map qt.foldCase ≤ second.path.map qt.foldCase

/-- The entry is a directory above the path and not the path itself. -/
def coversPath (entry : FileStagingEntry) (path : Text) : Bool :=
  entry.kind == .directory && Paths.identity qt entry.path != Paths.identity qt path &&
    Paths.contains qt entry.path path

def isCoveredByParentDirectory (entries : List FileStagingEntry) (path : Text) : Bool :=
  entries.any (coversPath qt · path)

/-- A path whose volume is unknown is on no drive. -/
def isOnDrive (source : CommitTraversalSource) (driveLetter path : Text) : Bool :=
  match source.volumeForPath path with
  | .error _ => false
  | .ok drive => qt.sameText drive driveLetter

def entriesForDrive (source : CommitTraversalSource) (driveLetter : Text)
    (entries : List FileStagingEntry) : List FileStagingEntry :=
  entries.filter fun entry => isOnDrive qt source driveLetter entry.path

namespace FileStagingPage

variable (source : CommitTraversalSource) (store : FileStagingStore S)

def emit (page : FileStagingPage S) (signal : FileStagingSignal) : FileStagingPage S :=
  { page with signals := page.signals ++ [signal] }

def setStorageUnavailable (page : FileStagingPage S) (error : Text) : FileStagingPage S :=
  (({ page with editor := { page.editor with storageAvailable := false, storageError := error } } :
    FileStagingPage S).emit .storageAvailabilityChanged).emit .storageUnavailable

/-- Reads the draft; reading it for the first time reads the store. -/
def loadDraft (page : FileStagingPage S) :
    Except Thrown (List FileStagingEntry) × FileStagingPage S :=
  let loaded := page.draft.load store page.stored
  (loaded.1, { page with draft := loaded.2.1, stored := loaded.2.2 })

/-- Shows the entries of the drive, and reports all of them to the policy. -/
def showEntries (page : FileStagingPage S) (entries : List FileStagingEntry) :
    FileStagingPage S :=
  { page with
    conflicts := page.conflicts.map (·.setStagedEntries qt entries)
    editor := { page.editor with
      entries := sortEntries qt (entriesForDrive qt source page.editor.driveLetter entries) } }

def load (page : FileStagingPage S) : Except Thrown Unit × FileStagingPage S :=
  match page.loadDraft store with
  | (.error (.standard error), page) => (.ok (), page.setStorageUnavailable error.what)
  | (.error .other, page) => (.error .other, page)
  | (.ok entries, page) =>
      let shown := page.showEntries qt source entries
      let available : FileStagingPage S :=
        { shown with editor := { shown.editor with storageAvailable := true, storageError := [] } }
      let signaled :=
        if page.editor.storageAvailable then available else available.emit .storageAvailabilityChanged
      (.ok (), signaled.emit .entriesChanged)

/-- What `updateDraft` does once an exception has been caught. -/
def recoverDraft (page : FileStagingPage S) (error : StandardError) : FileStagingPage S :=
  match page.loadDraft store with
  | (.error _, page) => page.setStorageUnavailable error.what
  | (.ok entries, page) =>
      ((page.showEntries qt source entries).emit .entriesChanged).emit (.updateFailed error.what)

def updateDraft (page : FileStagingPage S) (entries : List FileStagingEntry) :
    Except Thrown Unit × FileStagingPage S :=
  let replaced := page.draft.replace qt store (sortEntries qt entries) page.stored
  let page : FileStagingPage S := { page with draft := replaced.2.1, stored := replaced.2.2 }
  match replaced.1 with
  | .error (.standard error) => (.ok (), page.recoverDraft qt source store error)
  | .error .other => (.error .other, page)
  | .ok () =>
      match page.loadDraft store with
      | (.error (.standard error), page) => (.ok (), page.recoverDraft qt source store error)
      | (.error .other, page) => (.error .other, page)
      | (.ok entries, page) => (.ok (), (page.showEntries qt source entries).emit .entriesChanged)

/-- Why a path cannot be added. -/
def additionRejection (page : FileStagingPage S) (kind : FileStagingKind) (path : Text) :
    Option FileStagingRejection :=
  if !isAbsoluteLocalFileStagingPath path then some ⟨.nonLocalPath, path⟩
  else
    match source.inspect ⟨.file, path, [], []⟩ with
    | .error error => some ⟨.inspectionFailed, error.what⟩
    | .ok node =>
        if node.any (!·.skippedReason.isEmpty) then some ⟨.reparsePoint, path⟩
        else if node.map (·.kind) ≠ some (if kind = .file then .file else .folder) then
          some ⟨.wrongType, path⟩
        else
          match source.volumeForPath path with
          | .error error => some ⟨.resolutionFailed, error.what⟩
          | .ok targetDrive =>
              if targetDrive.isEmpty then some ⟨.missingDrive, path⟩
              else if !qt.sameText targetDrive page.editor.driveLetter then
                some ⟨.wrongDrive, targetDrive⟩
              else if kind = .directory ∧ Paths.isDriveRoot path = true then some ⟨.driveRoot, []⟩
              else
                (page.conflicts.bind (·.conflictingExclusion qt path)).map (⟨.exclusionConflict, ·⟩)

/-- The list with an accepted path, or nothing when the list has it already. -/
def insertEntry (entries : List FileStagingEntry) (kind : FileStagingKind) (path : Text) :
    Option (List FileStagingEntry) :=
  let same (entry : FileStagingEntry) := Paths.identity qt entry.path == Paths.identity qt path
  if isCoveredByParentDirectory qt entries path then none
  else if (entries.find? same).any (·.kind == kind) then none
  else
    let others := entries.eraseP same
    let kept :=
      if kind = .directory then others.filter fun entry => !Paths.contains qt path entry.path
      else others
    some (kept ++ [⟨kind, path⟩])

/-- The candidate list of an addition, and whether it has changed. -/
structure Addition where
  candidate : List FileStagingEntry
  changed : Bool := false
  rejections : List FileStagingRejection := []

def addPath (page : FileStagingPage S) (kind : FileStagingKind) (addition : Addition)
    (rawPath : Text) : Addition :=
  let path := Paths.normalize qt rawPath
  if path.isEmpty then addition
  else
    match page.additionRejection qt source kind path with
    | some rejection => { addition with rejections := addition.rejections ++ [rejection] }
    | none =>
        match insertEntry qt addition.candidate kind path with
        | none => addition
        | some candidate => { addition with candidate := candidate, changed := true }

def addEntries (page : FileStagingPage S) (paths : List Text) (kind : FileStagingKind) :
    Except Thrown Unit × FileStagingPage S :=
  match page.loadDraft store with
  | (.error (.standard error), page) => (.ok (), page.emit (.updateFailed error.what))
  | (.error .other, page) => (.error .other, page)
  | (.ok entries, page) =>
      let addition := paths.foldl (page.addPath qt source kind) { candidate := entries }
      let page := { page with signals := page.signals ++ addition.rejections.map .pathRejected }
      if addition.changed then page.updateDraft qt source store addition.candidate
      else (.ok (), page)

def removePath (entries : List FileStagingEntry) (path : Text) : List FileStagingEntry :=
  entries.filter fun entry => Paths.identity qt entry.path != Paths.identity qt path

def removePaths (page : FileStagingPage S) (paths : List Text) :
    Except Thrown Unit × FileStagingPage S :=
  if paths.isEmpty then (.ok (), page)
  else
    match page.loadDraft store with
    | (.error (.standard error), page) => (.ok (), page.emit (.updateFailed error.what))
    | (.error .other, page) => (.error .other, page)
    | (.ok entries, page) =>
        let candidate := paths.foldl (removePath qt) entries
        if candidate.length < entries.length then page.updateDraft qt source store candidate
        else
          (.ok (), ({ page with
            editor := { page.editor with
              entries := sortEntries qt (entriesForDrive qt source page.editor.driveLetter
                candidate) } } : FileStagingPage S).emit .entriesChanged)

def baselineEntries (page : FileStagingPage S) : List FileStagingEntry :=
  entriesForDrive qt source page.editor.driveLetter page.draft.baseline

/-- Appends an entry unless its path is in the list. -/
def appendMissing (candidate : List FileStagingEntry) (entry : FileStagingEntry) :
    List FileStagingEntry :=
  if candidate.any fun other => Paths.identity qt other.path == Paths.identity qt entry.path then
    candidate
  else candidate ++ [entry]

/-- The loop over the baseline stops at the first conflict. -/
def restoreEntries (page : FileStagingPage S) (paths : List Text) :
    List FileStagingEntry → List FileStagingEntry → Except Text (List FileStagingEntry)
  | candidate, [] => .ok candidate
  | candidate, entry :: rest =>
      if !qt.containsText paths entry.path then page.restoreEntries paths candidate rest
      else
        match page.conflicts.bind (·.conflictingExclusion qt entry.path) with
        | some conflict => .error conflict
        | none => page.restoreEntries paths (appendMissing qt candidate entry) rest

def restorePaths (page : FileStagingPage S) (paths : List Text) :
    Except Thrown Unit × FileStagingPage S :=
  match page.loadDraft store with
  | (.error thrown, page) => (.error thrown, page)
  | (.ok entries, page) =>
      match page.restoreEntries qt paths entries (page.baselineEntries qt source) with
      | .error conflict => (.ok (), page.emit (.pathRejected ⟨.exclusionConflict, conflict⟩))
      | .ok candidate => page.updateDraft qt source store candidate

end FileStagingPage

end UwfManager
