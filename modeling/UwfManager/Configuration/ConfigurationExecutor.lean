import UwfManager.Configuration.ApplyJournal

/-!
# Executing a plan

The staging list is saved first, then the changes are written one by one to
the provider.  A failed write does not stop the others, except where a later
one depends on it.  The provider and the staging store are arbitrary: each of
their calls may fail, before or after it had an effect.
-/

namespace UwfManager

/-! ## The provider -/

inductive Session where
  | current
  | next
  deriving DecidableEq, Repr

inductive ProviderOverlayType where
  | ram
  | disk
  deriving DecidableEq, Repr

inductive VolumeBinding where
  | driveLetter
  | volumeName
  deriving DecidableEq, Repr

structure RegistryPersistence where
  domainSecretKey : Bool
  terminalServicesClientAccessLicense : Bool
  deriving DecidableEq, Repr

structure FilterRow where
  path : Text
  currentEnabled : Bool := false
  nextEnabled : Bool := false

structure OverlayRow where
  path : Text
  overlayConsumption : UInt32 := 0
  availableSpace : UInt32 := 0
  criticalOverlayThreshold : UInt32
  warningOverlayThreshold : UInt32

structure OverlayConfigRow where
  path : Text
  currentSession : Bool := false
  type : ProviderOverlayType
  maximumSize : UInt32

structure VolumeRow where
  path : Text
  currentSession : Bool
  driveLetter : Text
  volumeName : Text := []
  bindByDriveLetter : Bool := true
  commitPending : Bool := false
  isProtected : Bool := false
  deriving DecidableEq

structure RegistryFilterRow where
  path : Text
  currentSession : Bool := false
  persistDomainSecretKey : Bool
  persistTSCAL : Bool

structure VolumeRegistration where
  row : VolumeRow
  disposition : VolumeRegistrationDisposition

/-- The calls that answer with data. -/
inductive ProviderRequest where
  | ensureConnected
  | readFilter
  | readOverlay
  | readOverlayConfig (session : Session)
  | readVolumes
  | ensureNextSessionEntry (driveLetter : Text)
  | readRegistryFilter (session : Session)

def ProviderRequest.Response : ProviderRequest → Type
  | .ensureConnected => Unit
  | .readFilter => FilterRow
  | .readOverlay => OverlayRow
  | .readOverlayConfig _ => OverlayConfigRow
  | .readVolumes => List VolumeRow
  | .ensureNextSessionEntry _ => VolumeRegistration
  | .readRegistryFilter _ => RegistryFilterRow

/-- The calls that write a row. -/
inductive ProviderWrite where
  | enableFilter (row : FilterRow)
  | disableFilter (row : FilterRow)
  | setWarningThreshold (row : OverlayRow) (sizeMb : UInt32)
  | setCriticalThreshold (row : OverlayRow) (sizeMb : UInt32)
  | setType (row : OverlayConfigRow) (type : ProviderOverlayType)
  | setMaximumSize (row : OverlayConfigRow) (sizeMb : UInt32)
  | protectVolume (row : VolumeRow)
  | unprotect (row : VolumeRow)
  | setBinding (row : VolumeRow) (binding : VolumeBinding)
  | addFileExclusion (row : VolumeRow) (fileName : Text)
  | removeFileExclusion (row : VolumeRow) (fileName : Text)
  | addRegistryExclusion (row : RegistryFilterRow) (registryKey : Text)
  | removeRegistryExclusion (row : RegistryFilterRow) (registryKey : Text)
  | setPersistence (row : RegistryFilterRow) (persistence : RegistryPersistence)

/-- A provider with states of any kind.  Each call may throw, whatever it has
done before. -/
structure ProviderOperations (P : Type*) where
  request : (request : ProviderRequest) → P → Except StandardError request.Response × P
  write : ProviderWrite → P → Except Thrown Unit × P

def findNextVolume (rows : List VolumeRow) (driveLetter : Text) : Option VolumeRow :=
  rows.find? fun row => !row.currentSession && row.driveLetter == driveLetter

def coreTypeToProvider (type : OverlayType) : ProviderOverlayType :=
  if type = .disk then .disk else .ram

/-! ## The steps of an apply -/

section Steps

variable {P : Type*} (ops : ProviderOperations P)

/-- Reads and goes on; a failed read is recorded and ends the step. -/
def tryRead (request : ProviderRequest) (failureContext : Message)
    (action : request.Response → Execution P → Execution P) (execution : Execution P) :
    Execution P :=
  match ops.request request execution.provider with
  | (.error error, provider) =>
      ⟨execution.journal.recordError failureContext error, provider⟩
  | (.ok response, provider) => action response ⟨execution.journal, provider⟩

def enabledText (value : Bool) : Message := if value then .plain "Enabled" else .plain "Disabled"

def enableText (value : Bool) : Message := if value then .plain "enable" else .plain "disable"

def applyFilter (pending : PendingChanges) (execution : Execution P) : Execution P :=
  match pending.setFilterEnabled with
  | none => execution
  | some enable =>
      tryRead ops .readFilter (.plain "✘ Failed to read filter state")
        (fun (row : FilterRow) execution =>
          (Execution.applyOperation .filter []
            ⟨.withArgs "✓ Filter: %1" [enabledText enable],
              .withArgs "✘ Failed to %1 filter" [enableText enable]⟩
            (ops.write (if enable then .enableFilter row else .disableFilter row)) true
            execution).2)
        execution

def applyThreshold (overlay : OverlayRow) (changes : OverlayConfigDelta)
    (run : StepResult × Execution P) (step : OverlayWriteStep) : StepResult × Execution P :=
  let ready := !step.requiresPrevious || decide (run.1 = .confirmed)
  if step.field = .warningThreshold then
    let value := changes.warningThresholdMb.getD 0
    Execution.applyOperation .warningThreshold []
      ⟨.withArgs "✓ Overlay warning threshold set to %1 MB" [.number value.toNat],
        .plain "✘ Failed to set warning threshold"⟩
      (ops.write (.setWarningThreshold overlay value)) ready run.2
  else
    let value := changes.criticalThresholdMb.getD 0
    Execution.applyOperation .criticalThreshold []
      ⟨.withArgs "✓ Overlay critical threshold set to %1 MB" [.number value.toNat],
        .plain "✘ Failed to set critical threshold"⟩
      (ops.write (.setCriticalThreshold overlay value)) ready run.2

def applyThresholds (pending : PendingChanges) (execution : Execution P) : Execution P :=
  if pending.setOverlay.warningThresholdMb.isSome ||
      pending.setOverlay.criticalThresholdMb.isSome then
    tryRead ops .readOverlay (.plain "✘ Failed to read overlay state")
      (fun (overlay : OverlayRow) execution =>
        let baseline : OverlayConfig :=
          { warningThresholdMb := overlay.warningOverlayThreshold
            criticalThresholdMb := overlay.criticalOverlayThreshold }
        let changes : OverlayConfigDelta :=
          { warningThresholdMb := pending.setOverlay.warningThresholdMb
            criticalThresholdMb := pending.setOverlay.criticalThresholdMb }
        ((planOverlayWrites baseline changes).foldl (applyThreshold ops overlay changes)
          (.confirmed, execution)).2)
      execution
  else execution

def applyStorageField (next : OverlayConfigRow) (baseline : OverlayConfig)
    (changes : OverlayConfigDelta) (run : StepResult × Execution P) (step : OverlayWriteStep) :
    StepResult × Execution P :=
  let ready := !step.requiresPrevious || decide (run.1 = .confirmed)
  if step.field = .type then
    let type := changes.type.getD .unknown
    Execution.applyOperation .overlayType []
      ⟨.withArgs "✓ Overlay type set to %1"
          [.literal (if type = .ram then "RAM".toList else "Disk".toList)],
        .plain "✘ Failed to set overlay type"⟩
      (ops.write (.setType next (coreTypeToProvider type))) ready run.2
  else
    let value := changes.maximumSizeMb.getD 0
    if changes.type.getD baseline.type = .disk ∧ value < diskOverlayMinSizeMb then
      (.failed, { run.2 with
        journal := (run.2.journal.begin .overlaySize []).recordFailure
          (.withArgs "✘ Maximum size not applied: a disk-based overlay requires at least %1 MB."
            [.number diskOverlayMinSizeMb.toNat]) .failed })
    else
      Execution.applyOperation .overlaySize []
        ⟨.withArgs "✓ Overlay maximum size set to %1 MB" [.number value.toNat],
          .plain "✘ Failed to set maximum size"⟩
        (ops.write (.setMaximumSize next value)) ready run.2

/-- Type and size can be written only while the filter is off. -/
def applyOverlayConfig (pending : PendingChanges) (snapshot : UwfSnapshot)
    (execution : Execution P) : Execution P :=
  if pending.setOverlay.touchesOverlayConfig then
    if snapshot.current.filter.enabled then
      { execution with
        journal := execution.journal.recordFailure
          (.plain "✘ Type / maximum size not applied: the filter is currently enabled. Disable the filter and reboot first.") .failed }
    else
      tryRead ops (.readOverlayConfig .next) (.plain "✘ Failed to read overlay configuration")
        (fun (next : OverlayConfigRow) execution =>
          let baseline : OverlayConfig :=
            { type := if next.type = .ram then .ram else .disk, maximumSizeMb := next.maximumSize }
          let changes : OverlayConfigDelta :=
            { type := pending.setOverlay.type, maximumSizeMb := pending.setOverlay.maximumSizeMb }
          ((planOverlayWrites baseline changes).foldl
            (applyStorageField ops next baseline changes) (.confirmed, execution)).2)
        execution
  else execution

/-- The rows read so far, and the volumes whose registration has failed. -/
structure VolumeExecution (P : Type*) extends Execution P where
  volumes : List VolumeRow
  registrationFailures : List Text := []

/-- The row of the next session, registered when it is missing.  A failed
registration is not tried again. -/
def getOrCreateNextVolume (dl : Text) (execution : VolumeExecution P) :
    Option VolumeRow × VolumeExecution P :=
  match findNextVolume execution.volumes dl with
  | some hit => (some hit, execution)
  | none =>
      if execution.registrationFailures.contains dl then (none, execution)
      else
        let journal := execution.journal.begin .volumeRegistration dl
        match ops.request (.ensureNextSessionEntry dl) execution.provider with
        | (.ok registration, provider) =>
            (some registration.row,
              { execution with
                journal := journal.registrationObserved registration.disposition dl
                provider := provider
                volumes := execution.volumes ++ [registration.row] })
        | (.error error, provider) =>
            (none,
              { execution with
                journal := journal.recordError
                  (.withArgs "✘ Volume %1: failed to register with UWF" [.literal dl]) error
                provider := provider
                registrationFailures := execution.registrationFailures ++ [dl] })

/-- Applies an operation to the volume and keeps the rows. -/
def applyVolumeOperation (kind : ConfigurationOperationKind) (target : Text)
    (messages : ApplyMessages) (write : ProviderWrite) (execution : VolumeExecution P) :
    VolumeExecution P :=
  { execution with
    toExecution := (Execution.applyOperation kind target messages (ops.write write) true
      execution.toExecution).2 }

def applyVolumeProtection (execution : VolumeExecution P) (volume : Text × Bool) :
    VolumeExecution P :=
  let dl := volume.1
  let wantProtect := volume.2
  match getOrCreateNextVolume ops dl execution with
  | (none, execution) => execution
  | (some row, execution) =>
      applyVolumeOperation ops .volumeProtection dl
        ⟨.withArgs "✓ Volume %1 protection: %2" [.literal dl, enabledText wantProtect],
          .withArgs "✘ Failed to %1 protection on volume %2"
            [enableText wantProtect, .literal dl]⟩
        (if wantProtect then .protectVolume row else .unprotect row) execution

def applyVolumeBinding (execution : VolumeExecution P) (volume : Text × Bool) :
    VolumeExecution P :=
  let dl := volume.1
  let byVolumeName := volume.2
  match getOrCreateNextVolume ops dl execution with
  | (none, execution) => execution
  | (some row, execution) =>
      applyVolumeOperation ops .volumeBinding dl
        ⟨.withArgs "✓ Volume %1 bind by: %2"
            [.literal dl, if byVolumeName then .plain "volume ID" else .plain "drive letter"],
          .withArgs "✘ Failed to set binding for volume %1" [.literal dl]⟩
        (.setBinding row (if byVolumeName then .volumeName else .driveLetter)) execution

def applyAddedFileExclusions (execution : VolumeExecution P) (volume : Text × List Text) :
    VolumeExecution P :=
  let dl := volume.1
  if volume.2.isEmpty then execution
  else
    match getOrCreateNextVolume ops dl execution with
    | (none, execution) => execution
    | (some row, execution) =>
        volume.2.foldl
          (fun execution path =>
            applyVolumeOperation ops .addFileExclusion (dl ++ path)
              ⟨.withArgs "✓ Volume %1 added file exclusion: %2" [.literal dl, .literal path],
                .withArgs "✘ Volume %1 failed to add file exclusion %2"
                  [.literal dl, .literal path]⟩
              (.addFileExclusion row path) execution)
          execution

/-- A volume without a row for the next session has no exclusions to remove. -/
def applyRemovedFileExclusions (execution : VolumeExecution P) (volume : Text × List Text) :
    VolumeExecution P :=
  let dl := volume.1
  if volume.2.isEmpty then execution
  else
    match findNextVolume execution.volumes dl with
    | none =>
        volume.2.foldl
          (fun execution path =>
            { execution with
              journal := (execution.journal.begin .removeFileExclusion (dl ++ path)).recordSuccess
                (.withArgs "✓ Volume %1 file exclusion already absent: %2"
                  [.literal dl, .literal path]) })
          { execution with journal := execution.journal.requireReconciliation }
    | some row =>
        volume.2.foldl
          (fun execution path =>
            applyVolumeOperation ops .removeFileExclusion (dl ++ path)
              ⟨.withArgs "✓ Volume %1 removed file exclusion: %2" [.literal dl, .literal path],
                .withArgs "✘ Volume %1 failed to remove file exclusion %2"
                  [.literal dl, .literal path]⟩
              (.removeFileExclusion row path) execution)
          execution

def applyVolumes (pending : PendingChanges) (execution : Execution P) : Execution P :=
  if pending.volumeProtect.isEmpty && pending.volumeBindByVolumeName.isEmpty &&
      pending.addFileExclusions.isEmpty && pending.removeFileExclusions.isEmpty then execution
  else
    tryRead ops .readVolumes (.plain "✘ Failed to read volume configuration")
      (fun (volumes : List VolumeRow) execution =>
        let start : VolumeExecution P := { toExecution := execution, volumes := volumes }
        let afterProtection := pending.volumeProtect.foldl (applyVolumeProtection ops) start
        let afterBinding :=
          pending.volumeBindByVolumeName.foldl (applyVolumeBinding ops) afterProtection
        let afterAdding :=
          pending.addFileExclusions.foldl (applyAddedFileExclusions ops) afterBinding
        (pending.removeFileExclusions.foldl
          (applyRemovedFileExclusions ops) afterAdding).toExecution)
      execution

def applyAddedRegistryExclusion (next : RegistryFilterRow) (execution : Execution P) (k : Text) :
    Execution P :=
  (Execution.applyOperation .addRegistryExclusion k
    ⟨.withArgs "✓ Added registry exclusion: %1" [.literal k],
      .withArgs "✘ Failed to add registry exclusion %1" [.literal k]⟩
    (ops.write (.addRegistryExclusion next k)) true execution).2

def applyRemovedRegistryExclusion (next : RegistryFilterRow) (execution : Execution P) (k : Text) :
    Execution P :=
  (Execution.applyOperation .removeRegistryExclusion k
    ⟨.withArgs "✓ Removed registry exclusion: %1" [.literal k],
      .withArgs "✘ Failed to remove registry exclusion %1" [.literal k]⟩
    (ops.write (.removeRegistryExclusion next k)) true execution).2

/-- Reports one of the two switches after the write of both was confirmed. -/
def reportPersistence (kind : ConfigurationOperationKind) (name : String) (requested : Option Bool)
    (execution : Execution P) : Execution P :=
  match requested with
  | none => execution
  | some value =>
      { execution with
        journal := ((execution.journal.begin kind []).confirmed).recordSuccess
          (.withArgs "✓ %1 persistence: %2" [.plain name, enabledText value]) }

/-- One provider write covers both switches; the one that is not asked for
keeps its value. -/
def applyPersistence (pending : PendingChanges) (next : RegistryFilterRow)
    (execution : Execution P) : Execution P :=
  if pending.setPersistDomainSecretKey.isSome || pending.setPersistTSCAL.isSome then
    let journal := execution.journal.endOperation
    let journal :=
      if pending.setPersistDomainSecretKey.isSome then journal.includeOperation .domainPersistence
      else journal
    let journal :=
      if pending.setPersistTSCAL.isSome then journal.includeOperation .licensePersistence
      else journal
    let persistence : RegistryPersistence :=
      ⟨pending.setPersistDomainSecretKey.getD next.persistDomainSecretKey,
        pending.setPersistTSCAL.getD next.persistTSCAL⟩
    match Execution.execute (.plain "✘ Failed to update registry persistence switches")
        (ops.write (.setPersistence next persistence)) { execution with journal := journal } with
    | (.failed, execution) => execution
    | (.confirmed, execution) =>
        reportPersistence .licensePersistence
          "Terminal Services Client Access License (TSCAL)" pending.setPersistTSCAL
          (reportPersistence .domainPersistence "Domain Secret Key (DomainSecretKey)"
            pending.setPersistDomainSecretKey execution)
  else execution

def applyRegistry (pending : PendingChanges) (execution : Execution P) : Execution P :=
  let execution := { execution with journal := execution.journal.endOperation }
  if pending.addRegistryExclusions.isEmpty && pending.removeRegistryExclusions.isEmpty &&
      pending.setPersistDomainSecretKey.isNone && pending.setPersistTSCAL.isNone then execution
  else
    tryRead ops (.readRegistryFilter .next) (.plain "✘ Failed to read registry filter")
      (fun (next : RegistryFilterRow) execution =>
        let afterAdding := pending.addRegistryExclusions.foldl
          (applyAddedRegistryExclusion ops next) execution
        let afterRemoving := pending.removeRegistryExclusions.foldl
          (applyRemovedRegistryExclusion ops next) afterAdding
        applyPersistence ops pending next afterRemoving)
      execution

end Steps

/-! ## The apply -/

structure ConfigurationApplyResult where
  lines : List Message
  anyWriteConfirmed : Bool
  reconciliationRequired : Bool
  connectionEstablished : Bool
  succeededOperations : ℕ
  failedOperations : ℕ
  steps : List ConfigurationStepResult
  staging : Option FileStagingWriteResult

def ApplyJournal.result (journal : ApplyJournal) (plan : ConfigurationPlan)
    (connectionEstablished : Bool) (staging : Option FileStagingWriteResult) :
    ConfigurationApplyResult where
  lines := journal.lines
  anyWriteConfirmed := journal.anyWriteConfirmed
  reconciliationRequired := journal.reconciliationRequired
  connectionEstablished := connectionEstablished
  succeededOperations := journal.succeededOperations
  failedOperations := journal.failedOperations
  steps := journal.stepsOf plan
  staging := staging

section Apply

variable {P S : Type*}

/-- Runs the prepared write and keeps its result; the failure of the write is thrown. -/
def performStaging (writeStaging : Option (S → FileStagingWriteResult × S)) :
    S × Option FileStagingWriteResult →
      Except Thrown Unit × (S × Option FileStagingWriteResult) :=
  fun saved =>
    match writeStaging with
    | none =>
        (.error (.standard ⟨"file staging apply requires a prepared write".toList, none⟩), saved)
    | some write =>
        let written := write saved.1
        match written.1.failure with
        | none => (.ok (), (written.2, some written.1))
        | some thrown => (.error thrown, (written.2, some written.1))

def saveStaging (writeStaging : Option (S → FileStagingWriteResult × S)) (journal : ApplyJournal)
    (state : S) : StepResult × Execution (S × Option FileStagingWriteResult) :=
  Execution.applyOperation .staging []
    ⟨.plain "File staging", .plain "File staging could not be saved"⟩
    (performStaging writeStaging) true ⟨journal, (state, none)⟩

/-- A saved list that nothing keeps across the restart counts as not saved. -/
def completeStaging (plan : ConfigurationPlan) (journal : ApplyJournal)
    (staging : FileStagingWriteResult) : FileStagingWriteResult :=
  if staging.failure.isNone && !journal.satisfiesStagingCompletion plan then
    { staging with
      failure := some (.standard ⟨"File staging could not be saved".toList, some .uncertain⟩) }
  else staging

def applyChanges (ops : ProviderOperations P) (plan : ConfigurationPlan)
    (execution : Execution P) : Execution P :=
  let afterFilter := applyFilter ops plan.changes execution
  let afterThresholds := applyThresholds ops plan.changes afterFilter
  let afterOverlay := applyOverlayConfig ops plan.changes plan.snapshot afterThresholds
  let afterVolumes := applyVolumes ops plan.changes afterOverlay
  applyRegistry ops plan.changes afterVolumes

def executePlan (ops : ProviderOperations P) (plan : ConfigurationPlan)
    (writeStaging : Option (S → FileStagingWriteResult × S)) (provider : P) (state : S) :
    ConfigurationApplyResult × P × S :=
  match ops.request .ensureConnected provider with
  | (.error error, provider) =>
      let journal :=
        ApplyJournal.recordError {} (.plain "✘ Failed to connect to the system") error
      (journal.result plan false none, provider, state)
  | (.ok _, provider) =>
      match plan.staging with
      | none =>
          let execution := applyChanges ops plan ⟨{}, provider⟩
          (execution.journal.result plan true none, execution.provider, state)
      | some _ =>
          match saveStaging writeStaging {} state with
          | (.failed, saved) =>
              (saved.journal.result plan true saved.provider.2, provider, saved.provider.1)
          | (.confirmed, saved) =>
              let execution := applyChanges ops plan ⟨saved.journal, provider⟩
              (execution.journal.result plan true
                  (saved.provider.2.map (completeStaging plan execution.journal)),
                execution.provider, saved.provider.1)

end Apply

end UwfManager
