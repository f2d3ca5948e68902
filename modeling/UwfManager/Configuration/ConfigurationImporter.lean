import UwfManager.Configuration.ExclusionEditor
import UwfManager.Configuration.GlobalConfigurationEditor
import UwfManager.Configuration.UwfmgrCommands

/-!
# Importing commands into the editors

Every command is applied to the editor of its target and gets one line in the
report.  A command that depends on its predecessor is skipped when that one was
not accepted.  The global fields are reconciled after the last command.
-/

namespace UwfManager

open Commands

/-! ## The editors of a session -/

inductive VolumeSupport where
  | supported
  | notFixedLocalDisk
  | exceedsMaxSize
  | fileSystemLimited
  | queryFailed
  deriving DecidableEq, Repr

def supportsVolumeProtection (support : VolumeSupport) : Bool :=
  support = .supported || support = .fileSystemLimited

def supportsFileOverlayOperations (support : VolumeSupport) : Bool :=
  support = .supported

structure VolumeConfigurationDraft where
  baselineProtected : Bool := false
  baselineBindByVolumeName : Bool := false
  protectedVolume : Bool := false
  bindByVolumeName : Bool := false
  supported : Bool := true
  hasVolume : Bool := false
  deriving DecidableEq

namespace VolumeConfigurationDraft

def pendingProtection (draft : VolumeConfigurationDraft) : Option Bool :=
  if !draft.supported || !draft.hasVolume then none
  else if draft.protectedVolume = draft.baselineProtected then none
  else some draft.protectedVolume

def pendingBinding (draft : VolumeConfigurationDraft) : Option Bool :=
  if !draft.supported || !draft.hasVolume then none
  else if draft.bindByVolumeName = draft.baselineBindByVolumeName then none
  else some draft.bindByVolumeName

def editProtection (draft : VolumeConfigurationDraft) (value : Bool) :
    Bool × VolumeConfigurationDraft :=
  if !draft.supported || !draft.hasVolume || draft.protectedVolume = value then (false, draft)
  else (true, { draft with protectedVolume := value })

end VolumeConfigurationDraft

structure VolumeConfigurationEditor where
  driveLetter : Text
  support : VolumeSupport := .supported
  status : VolumeConfigurationDraft := {}
  files : ExclusionEditor := { kind := .file }

namespace VolumeConfigurationEditor

variable (qt : Qt)

def importProtect (editor : VolumeConfigurationEditor) (value : Bool) :
    Bool × VolumeConfigurationEditor :=
  if supportsVolumeProtection editor.support then
    let edited := editor.status.editProtection value
    (edited.1, { editor with status := edited.2 })
  else (false, editor)

def importAddFileExclusion (editor : VolumeConfigurationEditor) (path : Text) :
    ExclusionImportOutcome × VolumeConfigurationEditor :=
  if supportsFileOverlayOperations editor.support then
    let imported := editor.files.importAdd qt path
    (imported.1, { editor with files := imported.2 })
  else (.rejectedNotOnVolume, editor)

def importRemoveFileExclusion (editor : VolumeConfigurationEditor) (path : Text) :
    ExclusionImportOutcome × VolumeConfigurationEditor :=
  if supportsFileOverlayOperations editor.support then
    let imported := editor.files.importRemove qt path
    (imported.1, { editor with files := imported.2 })
  else (.rejectedNotOnVolume, editor)

end VolumeConfigurationEditor

/-- The global and the registry editor are missing where the source passes a null pointer. -/
structure ImportEditors where
  global : Option GlobalConfigurationEditor := none
  volumes : List VolumeConfigurationEditor := []
  registry : Option ExclusionEditor := none

/-- What the import asks of its surroundings: `QString::toUInt` and the resolver of the
drive of a path. -/
structure ImportServices where
  toUInt : Text → Option UInt32
  resolveDrive : Text → Except Text Text

/-! ## The report -/

inductive ImportStatus where
  | success
  | duplicate
  | failed
  | unsupported
  deriving DecidableEq, Repr

def ImportStatus.accepted : ImportStatus → Bool
  | .success | .duplicate => true
  | .failed | .unsupported => false

structure ImportResult where
  status : ImportStatus := .failed
  lineNo : ℕ := 0
  lineText : Text := []
  detail : Message := .literal []

def parseErrorMessage (error : ParseError) (errorContext : Text) : Message :=
  match error with
  | .none | .comment => .literal []
  | .incomplete => .plain "Incomplete uwfmgr command"
  | .missingSizeArg => .plain "Missing size argument (MB)"
  | .invalidSize => .plain "Size must be a non-negative integer in MB"
  | .missingTypeArg => .plain "Missing overlay type argument (RAM or Disk)"
  | .unknownType =>
      .withArgs "Unknown overlay type %1 (expected RAM or Disk)" [.literal errorContext]
  | .missingVolumeArg => .plain "Missing volume argument (e.g. C:)"
  | .invalidVolume => .plain "Volume must be a drive letter such as C:"
  | .missingPathArg => .plain "Missing path argument"
  | .missingRegistryKeyArg => .plain "Missing registry key argument"
  | .malformedQuoting => .plain "Unclosed double quote in command"
  | .unexpectedArgument => .withArgs "Unexpected extra argument: %1" [.literal errorContext]
  | .unsupported => .plain "Unsupported uwfmgr command (cannot be mapped to a UI action)"

/-! ## Global fields -/

inductive GlobalField where
  | filter
  | overlayType
  | maximumSize
  | warningThreshold
  | criticalThreshold
  deriving DecidableEq, Repr

inductive GlobalValue where
  | enabled (value : Bool)
  | overlayType (value : OverlayType)
  | megabytes (value : UInt32)
  deriving DecidableEq, Repr

structure GlobalCommandEffect where
  reportIndex : ℕ
  field : GlobalField
  requested : GlobalValue
  before : GlobalValue
  changed : Bool

def globalField : UwfmgrKind → Option GlobalField
  | .filterEnable | .filterDisable => some .filter
  | .overlaySetType => some .overlayType
  | .overlaySetSize => some .maximumSize
  | .overlaySetWarningThreshold => some .warningThreshold
  | .overlaySetCriticalThreshold => some .criticalThreshold
  | _ => none

def globalValues (editor : GlobalConfigurationEditor) : GlobalField → GlobalValue
  | .filter => .enabled editor.draft.filterEnabled
  | .overlayType => .overlayType editor.draft.overlay.type
  | .maximumSize => .megabytes editor.draft.overlay.maximumSizeMb
  | .warningThreshold => .megabytes editor.draft.overlay.warningThresholdMb
  | .criticalThreshold => .megabytes editor.draft.overlay.criticalThresholdMb

def requestedValue (services : ImportServices) (field : GlobalField) (kind : UwfmgrKind)
    (argument : Text) : Option GlobalValue :=
  match field with
  | .filter => some (.enabled (kind = .filterEnable))
  | .overlayType =>
      some (.overlayType (if argument = "Disk".toList then .disk else .ram))
  | _ => (services.toUInt argument).map .megabytes

/-- The requested value is always of the type of its field. -/
def applyGlobalValue (editor : GlobalConfigurationEditor) :
    GlobalField → GlobalValue → Bool × GlobalConfigurationEditor
  | .filter, .enabled value => editor.importFilterEnabled value
  | .overlayType, .overlayType value => editor.importOverlayType value
  | .maximumSize, .megabytes value => editor.importOverlayMaxMb value
  | .warningThreshold, .megabytes value => editor.importOverlayWarnMb value
  | .criticalThreshold, .megabytes value => editor.importOverlayCritMb value
  | _, _ => (false, editor)

def fieldName : GlobalField → Message
  | .filter => .plain "Write protection"
  | .overlayType => .plain "Overlay type"
  | .maximumSize => .plain "maximum size"
  | .warningThreshold => .plain "warning threshold"
  | .criticalThreshold => .plain "critical threshold"

def valueText : GlobalValue → Message
  | .enabled value => if value then .plain "Enabled" else .plain "Disabled"
  | .overlayType value =>
      if value = .disk then .literal "Disk".toList else .literal "RAM".toList
  | .megabytes value => .append (.number value.toNat) (.literal " MB".toList)

/-- Only the last effect on a field describes its pending value. -/
def describeGlobalEffect (report : ImportResult) (effect : GlobalCommandEffect)
    (initial actual : GlobalValue) (latest : Bool) : ImportResult :=
  let name := fieldName effect.field
  let requested := valueText effect.requested
  let final := valueText actual
  if !latest then
    { report with
      status := if effect.changed then .success else .duplicate
      detail := .withArgs
        "Requested %1 → %2; replaced by a later command. Final draft value → %3"
        [name, requested, final] }
  else
    let changed := effect.changed && actual ≠ effect.before && actual ≠ initial
    let detail :=
      if actual ≠ effect.requested then
        .withArgs "Final draft %1 → %2 (requested %3)" [name, final, requested]
      else .withArgs "Final draft %1 → %2" [name, final]
    { report with
      status := if changed then .success else .duplicate
      detail :=
        if actual = initial then
          .append (.append detail (.literal " — ".toList))
            (.plain "No net change for this setting")
        else detail }

/-! ## One command -/

variable (qt : Qt) (services : ImportServices)

/-- Edits the first volume with this drive letter. -/
def editVolume {α : Type} (driveLetter : Text)
    (edit : VolumeConfigurationEditor → α × VolumeConfigurationEditor) :
    List VolumeConfigurationEditor → Option (α × List VolumeConfigurationEditor)
  | [] => none
  | editor :: rest =>
      if qt.sameText editor.driveLetter driveLetter then
        let edited := edit editor
        some (edited.1, edited.2 :: rest)
      else (editVolume driveLetter edit rest).map fun edited => (edited.1, editor :: edited.2)

def outcomeStatus : ExclusionImportOutcome → ImportStatus
  | .applied => .success
  | .noOp => .duplicate
  | _ => .failed

def outcomeDetail (kindLabel : Message) : ExclusionImportOutcome → Message
  | .applied => .withArgs "Updated the %1 draft" [kindLabel]
  | .noOp => .plain "Already in the target state — no-op"
  | .rejectedNotOnVolume =>
      .plain ("Path is not on this volume, or this volume does not support file exclusions " ++
        "(e.g. exFAT / ReFS)")
  | .rejectedForbidden =>
      .plain "Rejected by UWF's blacklist (system file / Windows / pagefile / etc.)"
  | .rejectedConflict => .plain "The path overlaps an existing file staging entry"
  | .rejectedRequired =>
      .plain "The registry exclusion is required while File staging contains saved entries"

/-- The line of the report before it is filled in. -/
def reportLine (command : UwfmgrCommand) (status : ImportStatus) (detail : Message) :
    ImportResult where
  status := status
  lineNo := command.sourceLineNo
  lineText := qt.trimmed command.rawLine
  detail := detail

def outcomeToRow (command : UwfmgrCommand) (outcome : ExclusionImportOutcome)
    (kindLabel : Message) : ImportResult :=
  reportLine qt command (outcomeStatus outcome) (outcomeDetail kindLabel outcome)

/-- The locals of the import; `results` is `out`. -/
structure ImportState where
  editors : ImportEditors
  results : List ImportResult := []
  effects : List GlobalCommandEffect := []
  initial : Option (GlobalField → GlobalValue) := none
  previousAccepted : Bool := false

namespace ImportState

def appendResult (result : ImportResult) (state : ImportState) : ImportState :=
  { state with
    previousAccepted := result.status.accepted
    results := state.results ++ [result] }

def importGlobal (command : UwfmgrCommand) (field : GlobalField) (argument : Text)
    (state : ImportState) : ImportState :=
  let unavailable := reportLine qt command .failed
    (.plain "Global configuration is unavailable; the command was not queued.")
  match state.editors.global with
  | none => state.appendResult unavailable
  | some global =>
      if !global.available then state.appendResult unavailable
      else
        match requestedValue services field command.kind argument with
        | none =>
            state.appendResult (reportLine qt command .failed
              (.withArgs "Invalid size value: %1" [.literal argument]))
        | some requested =>
            let applied := applyGlobalValue global field requested
            let effect : GlobalCommandEffect :=
              ⟨state.results.length, field, requested, globalValues global field, applied.1⟩
            { state with
              editors := { state.editors with global := some applied.2 }
              effects := state.effects ++ [effect]
              initial := some (state.initial.getD (globalValues global)) }.appendResult
                (reportLine qt command (if applied.1 then .success else .duplicate)
                  (.literal []))

def importVolume (command : UwfmgrCommand) (argument : Text) (want : Bool)
    (state : ImportState) : ImportState :=
  match editVolume qt argument (fun editor => editor.importProtect want) state.editors.volumes with
  | none =>
      state.appendResult (reportLine qt command .failed
        (.withArgs "Unknown volume %1 (no UWF-eligible disk with that drive letter)"
          [.literal argument]))
  | some (changed, volumes) =>
      { state with editors := { state.editors with volumes := volumes } }.appendResult
        (reportLine qt command (if changed then .success else .duplicate)
          (if changed then
            .withArgs "Updated volume %1 protection draft → %2"
              [.literal argument, valueText (.enabled want)]
          else .withArgs "Volume %1 is already in the target protection state"
            [.literal argument]))

def importFile (command : UwfmgrCommand) (argument : Text) (add : Bool) (state : ImportState) :
    ImportState :=
  let native := qt.toNativeSeparators argument
  match services.resolveDrive native with
  | .error what =>
      state.appendResult (reportLine qt command .failed
        (.withArgs "Failed to resolve the volume for path %1: %2"
          [.literal native, .literal what]))
  | .ok dl =>
      if dl.isEmpty then
        state.appendResult (reportLine qt command .failed
          (.withArgs "Path %1 has no drive letter; cannot route to a volume tab"
            [.literal native]))
      else
        match editVolume qt dl (fun editor =>
            if add then editor.importAddFileExclusion qt native
            else editor.importRemoveFileExclusion qt native) state.editors.volumes with
        | none =>
            state.appendResult (reportLine qt command .failed
              (.withArgs "No UWF-eligible disk for drive letter %1" [.literal dl]))
        | some (outcome, volumes) =>
            { state with editors := { state.editors with volumes := volumes } }.appendResult
              (outcomeToRow qt command outcome (.plain "file exclusion"))

def importRegistry (command : UwfmgrCommand) (argument : Text) (add : Bool)
    (state : ImportState) : ImportState :=
  match state.editors.registry with
  | none =>
      state.appendResult (reportLine qt command .failed
        (.plain "Registry exclusions are only available on the registry tab, which is not present"))
  | some registry =>
      let imported :=
        if add then registry.importAdd qt argument else registry.importRemove qt argument
      { state with editors := { state.editors with registry := some imported.2 } }.appendResult
        (outcomeToRow qt command imported.1 (.plain "registry exclusion"))

/-- A command that is not skipped. -/
def importParsed (command : UwfmgrCommand) (state : ImportState) : ImportState :=
  if command.parseError ≠ .none ∧ command.parseError ≠ .comment then
    state.appendResult (reportLine qt command
      (if command.parseError = .unsupported then .unsupported else .failed)
      (parseErrorMessage command.parseError command.parseErrorContext))
  else
    let a0 := command.args.headD []
    match globalField command.kind with
    | some field => state.importGlobal qt services command field a0
    | none =>
        match command.kind with
        | .volumeProtect => state.importVolume qt command a0 true
        | .volumeUnprotect => state.importVolume qt command a0 false
        | .fileAddExclusion => state.importFile qt services command a0 true
        | .fileRemoveExclusion => state.importFile qt services command a0 false
        | .registryAddExclusion => state.importRegistry qt command a0 true
        | .registryRemoveExclusion => state.importRegistry qt command a0 false
        | _ =>
            state.appendResult (reportLine qt command .unsupported (.plain "Unsupported command"))

def skippedLine (command : UwfmgrCommand) : ImportResult :=
  reportLine qt command .failed
    (.plain "Skipped because a prerequisite operation failed or could not be confirmed.")

def importCommand (state : ImportState) (command : UwfmgrCommand) : ImportState :=
  if command.requiresPrevious && !state.previousAccepted then
    state.appendResult (skippedLine qt command)
  else state.importParsed qt services command

def importCommands (commands : List UwfmgrCommand) (state : ImportState) : ImportState :=
  commands.foldl (importCommand qt services) state

end ImportState

/-! ## The end of the batch -/

/-- Describes the effects from the last one back; `described` has the fields seen. -/
def describeEffects (global : GlobalConfigurationEditor) (initial : GlobalField → GlobalValue) :
    List GlobalField → List GlobalCommandEffect → List ImportResult → List ImportResult
  | _, [], results => results
  | described, effect :: rest, results =>
      let report (result : ImportResult) : ImportResult :=
        if !global.available then
          { result with
            status := .failed
            detail := .plain "Global configuration is unavailable; the command was not queued." }
        else
          describeGlobalEffect result effect (initial effect.field)
            (globalValues global effect.field) (!described.contains effect.field)
      describeEffects global initial
        (if global.available then effect.field :: described else described) rest
        (results.modify effect.reportIndex report)

def finishImportState (state : ImportState) : List ImportResult × ImportEditors :=
  match state.editors.global with
  | none => (state.results, state.editors)
  | some global =>
      let finished := global.finishImport
      (describeEffects finished (state.initial.getD (globalValues finished)) []
          state.effects.reverse state.results,
        { state.editors with global := some finished })

def applyImportCommands (commands : List UwfmgrCommand) (editors : ImportEditors) :
    List ImportResult × ImportEditors :=
  finishImportState (({ editors := editors } : ImportState).importCommands qt services commands)

end UwfManager
