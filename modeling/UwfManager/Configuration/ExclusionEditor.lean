import UwfManager.Configuration.ExclusionDraft
import UwfManager.Configuration.ExclusionRules
import UwfManager.Library.GuardedRun
import UwfManager.Staging.FileStagingConflictPolicy

/-!
# The editor of exclusions

One editor holds the file exclusions of a volume or the registry exclusions.
The entries of the baseline may be stored without a drive letter, so a file
editor keeps every entry in the form it has under its drive letter, which can
be set at any time.
-/

namespace UwfManager

inductive ExclusionKind where
  | file
  | registry
  deriving DecidableEq, Repr

inductive PersistenceItem where
  | domainSecretKey
  | tscal
  deriving DecidableEq, Repr

structure EditResult where
  outcome : ExclusionImportOutcome := .noOp
  path : Text := []
  reason : Option Message := none
  conflict : Text := []

structure Selection where
  path : Text
  persistence : Option PersistenceItem := none
  deriving DecidableEq

structure ExclusionEditor where
  kind : ExclusionKind
  draft : ExclusionDraft := {}
  driveLetter : Drive.Binding := .unbound
  systemDrive : Drive.Binding := .unbound
  conflicts : Option FileStagingConflictPolicy := none
  /-- What the probe answers when it is asked. -/
  fileStagingDataProbe : Option (Except Thrown Bool) := none
  readOnly : Bool := false

namespace ExclusionDraft

def persistence (draft : ExclusionDraft) : PersistenceItem → PersistenceFlagDraft
  | .domainSecretKey => draft.domainSecretKey
  | .tscal => draft.tscal

def updatePersistence (draft : ExclusionDraft) (item : PersistenceItem)
    (update : PersistenceFlagDraft → PersistenceFlagDraft) : ExclusionDraft :=
  match item with
  | .domainSecretKey => { draft with domainSecretKey := update draft.domainSecretKey }
  | .tscal => { draft with tscal := update draft.tscal }

end ExclusionDraft

variable (qt : Qt)

def isFileStagingRegistryRoot (key : Text) : Bool :=
  qt.sameText (RegKey.normalize key) (RegKey.normalize fileStagingRegistryRoot)

namespace ExclusionEditor

def absoluteFilePath (editor : ExclusionEditor) (path : Text) : Text :=
  if editor.kind ≠ .file ∨ path = [] then path
  else Paths.normalizeOn qt editor.driveLetter.letter path

/-- The path that an entered text stands for. -/
def entryPath (editor : ExclusionEditor) (raw : Text) : Text :=
  match editor.kind with
  | .file => editor.absoluteFilePath qt (qt.trimmed raw)
  | .registry => RegKey.normalize (qt.trimmed raw)

def normalizeFileExclusions (editor : ExclusionEditor) : ExclusionEditor :=
  match editor.kind with
  | .registry => editor
  | .file =>
      let normalized (paths : List Text) :=
        qt.sortUnique (paths.map (editor.absoluteFilePath qt))
      { editor with
        draft := { editor.draft with
          current := normalized editor.draft.current
          next := normalized editor.draft.next
          added := normalized editor.draft.added
          removed := normalized editor.draft.removed } }

/-- What the running session excludes and what the next one will exclude. -/
def effectiveFileExclusions (editor : ExclusionEditor) : List Text :=
  match editor.kind with
  | .registry => []
  | .file =>
      (editor.draft.current ++ editor.draft.effectiveNext qt).foldl
        (fun result path =>
          let absolute := editor.absoluteFilePath qt path
          if qt.containsText result absolute then result else result ++ [absolute])
        []

def publishFileExclusions (editor : ExclusionEditor) : ExclusionEditor :=
  match editor.kind with
  | .registry => editor
  | .file =>
      { editor with
        conflicts := editor.conflicts.map fun conflicts =>
          conflicts.setFileExclusions qt (editor.effectiveFileExclusions qt) }

def setDriveLetter (editor : ExclusionEditor) (dl : Text) : ExclusionEditor :=
  (({ editor with driveLetter := Drive.bind dl } : ExclusionEditor).normalizeFileExclusions
    qt).publishFileExclusions qt

def setSystemDriveLetter (editor : ExclusionEditor) (dl : Text) : ExclusionEditor :=
  { editor with systemDrive := Drive.bind dl }

def setBaseline (editor : ExclusionEditor) (current next : List Text) : ExclusionEditor :=
  let replaced : ExclusionEditor :=
    { editor with
      draft := { editor.draft with current := current, next := next, added := [], removed := [] } }
  match editor.kind with
  | .registry =>
      { replaced with
        draft := { replaced.draft with
          current := qt.sortUnique (current.map RegKey.normalize)
          next := qt.sortUnique (next.map RegKey.normalize) } }
  | .file => (replaced.normalizeFileExclusions qt).publishFileExclusions qt

def resetPending (editor : ExclusionEditor) : ExclusionEditor :=
  ({ editor with draft := editor.draft.reset } : ExclusionEditor).publishFileExclusions qt

def fileStagingRegistryRootRequired (editor : ExclusionEditor) : Bool :=
  if editor.kind ≠ .registry then false
  else
    match editor.fileStagingDataProbe with
    | none => false
    | some (.ok required) => required
    | some (.error _) => true

def refreshFileStagingConstraints (editor : ExclusionEditor) : ExclusionEditor :=
  if editor.fileStagingRegistryRootRequired &&
      containsExclusion qt editor.draft.removed fileStagingRegistryRoot then
    { editor with
      draft := { editor.draft with
        removed := removeExclusion qt editor.draft.removed fileStagingRegistryRoot } }
  else editor

def setFileStagingDataProbe (editor : ExclusionEditor) (probe : Option (Except Thrown Bool)) :
    ExclusionEditor :=
  ({ editor with fileStagingDataProbe := probe } : ExclusionEditor).refreshFileStagingConstraints qt

def setReadOnly (editor : ExclusionEditor) (value : Bool) : ExclusionEditor :=
  { editor with readOnly := value }

def canRemoveSelection (editor : ExclusionEditor) (paths : List Text) : Bool :=
  if editor.readOnly then false
  else if editor.kind ≠ .registry ∨ editor.fileStagingDataProbe.isNone then true
  else !paths.any (isFileStagingRegistryRoot qt) || !editor.fileStagingRegistryRootRequired

def validateAddition (editor : ExclusionEditor) (raw : Text) : EditResult :=
  if (qt.trimmed raw).isEmpty then {}
  else
    let path := editor.entryPath qt raw
    match editor.kind with
    | .file =>
        let letter := editor.driveLetter.letter
        if !letter.isEmpty && !qt.startsWith path (letter ++ ['\\']) &&
            !qt.sameText path letter then
          { outcome := .rejectedNotOnVolume, path := path }
        else
          match fileRejectionReason qt path letter editor.systemDrive.letter with
          | some reason =>
              { outcome := .rejectedForbidden, path := path, reason := some reason }
          | none =>
              let conflict := editor.conflicts.bind fun conflicts =>
                conflicts.conflictingStagedPath qt (editor.absoluteFilePath qt path)
              if (conflict.getD []).isEmpty then { outcome := .applied, path := path }
              else
                { outcome := .rejectedConflict, path := path, conflict := conflict.getD [] }
    | .registry =>
        match registryRejectionReason qt path with
        | some reason => { outcome := .rejectedForbidden, path := path, reason := some reason }
        | none => { outcome := .applied, path := path }

def addEntry (editor : ExclusionEditor) (raw : Text) : EditResult × ExclusionEditor :=
  let result := editor.validateAddition qt raw
  if result.outcome ≠ .applied then (result, editor)
  else
    let added := editor.draft.add qt result.path
    ({ result with outcome := if added.1 then .applied else .noOp },
      ({ editor with draft := added.2 } : ExclusionEditor).publishFileExclusions qt)

def importAdd (editor : ExclusionEditor) (raw : Text) :
    ExclusionImportOutcome × ExclusionEditor :=
  let result := editor.validateAddition qt raw
  if result.outcome ≠ .applied then (result.outcome, editor)
  else
    let added := editor.draft.add qt result.path
    if added.1 then
      (.applied, ({ editor with draft := added.2 } : ExclusionEditor).publishFileExclusions qt)
    else (.noOp, editor)

def importRemove (editor : ExclusionEditor) (raw : Text) :
    ExclusionImportOutcome × ExclusionEditor :=
  if (qt.trimmed raw).isEmpty then (.noOp, editor)
  else
    let p := editor.entryPath qt raw
    if editor.kind = .registry ∧ isFileStagingRegistryRoot qt p = true ∧
        editor.fileStagingRegistryRootRequired = true then (.rejectedRequired, editor)
    else
      let removed := editor.draft.remove qt p
      if removed.1 then
        (.applied, ({ editor with draft := removed.2 } : ExclusionEditor).publishFileExclusions qt)
      else (.noOp, editor)

/-- The path under which a selected item is in the draft. -/
def selectedPath (editor : ExclusionEditor) (item : Selection) : Text :=
  match editor.kind with
  | .file => editor.absoluteFilePath qt item.path
  | .registry => item.path

def removeSelected (editor : ExclusionEditor) (draft : ExclusionDraft) (item : Selection) :
    ExclusionDraft :=
  match item.persistence with
  | some persistence => draft.updatePersistence persistence PersistenceFlagDraft.toggle
  | none => (draft.remove qt (editor.selectedPath qt item)).2

def removeSelection (editor : ExclusionEditor) (selection : List Selection) :
    Bool × ExclusionEditor :=
  if !editor.canRemoveSelection qt (selection.map (·.path)) then (false, editor)
  else
    let draft := selection.foldl (editor.removeSelected qt) editor.draft
    (true, ({ editor with draft := draft } : ExclusionEditor).publishFileExclusions qt)

def restoreSelected (draft : ExclusionDraft) (item : Selection) : ExclusionDraft :=
  match item.persistence with
  | some persistence => draft.updatePersistence persistence PersistenceFlagDraft.enable
  | none => (draft.add qt item.path).2

/-- Every selected path is validated before the first one is restored. -/
def validateSelection (editor : ExclusionEditor) : List Selection → Option (List Selection)
  | [] => some []
  | item :: rest =>
      match item.persistence with
      | some _ => (editor.validateSelection rest).map (item :: ·)
      | none =>
          let result := editor.validateAddition qt item.path
          if result.outcome ≠ .applied then none
          else (editor.validateSelection rest).map (⟨result.path, none⟩ :: ·)

def restoreSelection (editor : ExclusionEditor) (selection : List Selection) :
    Bool × ExclusionEditor :=
  if editor.readOnly || selection.isEmpty then (false, editor)
  else
    match editor.validateSelection qt selection with
    | none => (false, editor)
    | some validated =>
        let draft := validated.foldl (restoreSelected qt) editor.draft
        (true, ({ editor with draft := draft } : ExclusionEditor).publishFileExclusions qt)

def enablePersistence (editor : ExclusionEditor) (item : PersistenceItem) : ExclusionEditor :=
  if editor.readOnly then editor
  else
    { editor with draft := editor.draft.updatePersistence item PersistenceFlagDraft.enable }

end ExclusionEditor

end UwfManager
