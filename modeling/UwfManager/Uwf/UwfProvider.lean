import Mathlib.Data.List.Dedup
import UwfManager.Uwf.WmiOperations

/-!
# The provider over WMI

The classes of the provider read rows and write single settings.  No write is
repeated: whether it returned or its outcome is uncertain, one authoritative
reread decides.
-/

namespace UwfManager

variable {W : Type*}

/-! ## Write verification -/

def stateVerificationError (operation detail : Text) : WmiThrown :=
  .failure (.of .stateVerification operation detail)

/-- Decides by a reread what became of a write; the text of an uncertain
invocation is told along. -/
def confirmWrite (operation : Text) (uncertainInvocation : Option Text)
    (observe : StatefulAction WmiThrown W Bool) : StatefulAction WmiThrown W Unit := fun state =>
  match observe state with
  | (.ok true, state) => (.ok (), state)
  | (.ok false, state) =>
      (.error (stateVerificationError operation (match uncertainInvocation with
        | some what => "write outcome was uncertain and the authoritative state does not match; original failure: ".toList ++ what
        | none => "provider accepted the write, but the authoritative state does not match".toList)),
        state)
  | (.error (.failure error), state) =>
      (.error (stateVerificationError operation (match uncertainInvocation with
        | some what => "write outcome was uncertain and the authoritative state could not be reread; original failure: ".toList ++ what ++ "; reread failure: ".toList ++ error.what
        | none => "write completed, but the authoritative state could not be reread; reread failure: ".toList ++ error.what)),
        state)
  | (.error .other, state) =>
      (.error (stateVerificationError operation (match uncertainInvocation with
        | some what => "write outcome was uncertain and the authoritative state reread failed with a non-standard exception; original failure: ".toList ++ what
        | none => "write completed, but the authoritative state reread failed with a non-standard exception".toList)),
        state)

def invokeAndConfirm (operation : Text) (invoke : StatefulAction WmiThrown W Unit)
    (observe : StatefulAction WmiThrown W Bool) : StatefulAction WmiThrown W Unit := fun state =>
  match invoke state with
  | (.ok (), state) => confirmWrite operation none observe state
  | (.error (.failure (.wmi .invocationUncertain what)), state) =>
      confirmWrite operation (some what) observe state
  | (.error thrown, state) => (.error thrown, state)

/-- A row without a path cannot be written. -/
def requirePath (path : Text) (operation className : String) : StatefulAction WmiThrown W Unit :=
  if path.isEmpty then
    .fail (.failure (.of .protocol operation.toList
      (className.toList ++ " row has no object path".toList)))
  else pure ()

/-! ## Rows -/

def decodeFilter (source : WmiRow) : Except WmiFailure FilterRow := do
  let path ← source.requireString "__PATH".toList true
  let currentEnabled ← source.requireBoolOrFalseIfNull "CurrentEnabled".toList
  let nextEnabled ← source.requireBoolOrFalseIfNull "NextEnabled".toList
  return ⟨path, currentEnabled, nextEnabled⟩

def decodeOverlay (source : WmiRow) : Except WmiFailure OverlayRow := do
  let path ← source.requireString "__PATH".toList true
  let overlayConsumption ← source.requireUInt "OverlayConsumption".toList
  let availableSpace ← source.requireUInt "AvailableSpace".toList
  let criticalOverlayThreshold ← source.requireUInt "CriticalOverlayThreshold".toList
  let warningOverlayThreshold ← source.requireUInt "WarningOverlayThreshold".toList
  return ⟨path, overlayConsumption, availableSpace, criticalOverlayThreshold,
    warningOverlayThreshold⟩

def decodeOverlayConfig (source : WmiRow) : Except WmiFailure OverlayConfigRow := do
  let type ← source.requireUInt "Type".toList
  if type > 1 then
    .error (.of .decode "decode UWF_OverlayConfig".toList
      ("Type has unsupported value ".toList ++ Nat.toDigits 10 type.toNat))
  else
    let path ← source.requireString "__PATH".toList true
    let currentSession ← source.requireBool "CurrentSession".toList
    let maximumSize ← source.requireUInt "MaximumSize".toList
    return ⟨path, currentSession, if type = 0 then .ram else .disk, maximumSize⟩

/-- A volume without a drive letter is not managed. -/
def decodeManagedVolume (source : WmiRow) : Except WmiFailure (Option VolumeRow) := do
  let path ← source.requireString "__PATH".toList true
  let currentSession ← source.requireBool "CurrentSession".toList
  let volumeName ← source.requireString "VolumeName".toList true
  match source.lookup "DriveLetter".toList with
  | none =>
      .error (.of .decode "decode UWF_Volume".toList "field 'DriveLetter' is missing".toList)
  | some .none => return none
  | some _ =>
      let driveLetter ← source.requireString "DriveLetter".toList false
      if driveLetter.isEmpty then return none
      else
        let normalizedDrive := Drive.normalize driveLetter
        if normalizedDrive.isEmpty then
          .error (.of .decode "decode UWF_Volume".toList
            ("invalid DriveLetter: ".toList ++ driveLetter))
        else
          let bindByDriveLetter ← source.requireBool "BindByDriveLetter".toList
          let commitPending ← source.requireBool "CommitPending".toList
          let isProtected ← source.requireBoolOrFalseIfNull "Protected".toList
          return some ⟨path, currentSession, normalizedDrive, volumeName, bindByDriveLetter,
            commitPending, isProtected⟩

def decodeRegistryFilter (source : WmiRow) : Except WmiFailure RegistryFilterRow := do
  let path ← source.requireString "__PATH".toList true
  let currentSession ← source.requireBool "CurrentSession".toList
  let persistDomainSecretKey ← source.requireBool "PersistDomainSecretKey".toList
  let persistTSCAL ← source.requireBool "PersistTSCAL".toList
  return ⟨path, currentSession, persistDomainSecretKey, persistTSCAL⟩

/-! ## Reading -/

variable (wmi : WmiOperations W)

/-- The single instance of a class, decoded. -/
def readSingle {Row : Type} (className : String) (decode : WmiRow → Except WmiFailure Row) :
    StatefulAction WmiFailure W Row := do
  let rows ← wmi.queryInstances ("SELECT * FROM ".toList ++ className.toList)
  match rows with
  | [row] => .ofExcept (decode row)
  | _ =>
      .fail (.of .protocol ("read ".toList ++ className.toList)
        ("expected one instance, received ".toList ++ Nat.toDigits 10 rows.length))

def readFilter : StatefulAction WmiFailure W FilterRow := readSingle wmi "UWF_Filter" decodeFilter

def readOverlay : StatefulAction WmiFailure W OverlayRow :=
  readSingle wmi "UWF_Overlay" decodeOverlay

/-- Decodes the instances of a class that has one for each session. -/
def decodeSessions {Row : Type} (className : String) (decode : WmiRow → Except WmiFailure Row)
    (currentSession : Row → Bool) (rows : List WmiRow) : Except WmiFailure (List Row) :=
  rows.foldlM
    (fun out row => do
      let decoded ← decode row
      if out.any fun other => currentSession other == currentSession decoded then
        .error (.of .protocol ("read ".toList ++ className.toList)
          ("duplicate ".toList ++
            (if currentSession decoded then "current".toList else "next".toList) ++
            " session instances".toList))
      else return out ++ [decoded])
    []

def readSession {Row : Type} (className : String) (decode : WmiRow → Except WmiFailure Row)
    (currentSession : Row → Bool) (session : Session) : StatefulAction WmiFailure W Row := do
  let rows ← wmi.queryInstances ("SELECT * FROM ".toList ++ className.toList)
  let decoded ← .ofExcept (decodeSessions className decode currentSession rows)
  let current := decide (session = .current)
  match decoded.find? fun row => currentSession row == current with
  | some row => return row
  | none =>
      .fail (.of .protocol ("read ".toList ++ className.toList)
        ((if current then "current".toList else "next".toList) ++
          " session instance is missing".toList))

def readOverlayConfig (session : Session) : StatefulAction WmiFailure W OverlayConfigRow :=
  readSession wmi "UWF_OverlayConfig" decodeOverlayConfig (·.currentSession) session

def readRegistryFilter (session : Session) : StatefulAction WmiFailure W RegistryFilterRow :=
  readSession wmi "UWF_RegistryFilter" decodeRegistryFilter (·.currentSession) session

/-! ### Volumes -/

def sessionText (currentSession : Bool) : Text :=
  if currentSession then "current".toList else "next".toList

/-- Decodes the managed volumes; an identity may occur only once. -/
def decodeVolumes (rows : List WmiRow) : Except WmiFailure (List VolumeRow) :=
  rows.foldlM
    (fun volumes row => do
      match ← decodeManagedVolume row with
      | none => return volumes
      | some decoded =>
          if volumes.any fun other =>
              other.currentSession == decoded.currentSession &&
                other.driveLetter == decoded.driveLetter &&
                toUpperAscii other.volumeName == toUpperAscii decoded.volumeName then
            .error (.of .protocol "read UWF_Volume".toList
              ("duplicate ".toList ++ sessionText decoded.currentSession ++
                " session instance for ".toList ++ decoded.driveLetter ++ " / ".toList ++
                decoded.volumeName))
          else return volumes ++ [decoded])
    []

/-- The letters of the volumes looked up so far, by folded volume name. -/
abbrev MountCache := List (Text × List Text)

/-- Whether the volume is mounted at its letter; each volume is looked up once. -/
def mountedAtDrive (cache : MountCache) (row : VolumeRow) :
    StatefulAction WmiFailure W (Bool × MountCache) := do
  let key := toUpperAscii row.volumeName
  match cache.lookup key with
  | some letters => return (letters.contains row.driveLetter, cache)
  | none =>
      let letters ← wmi.mountedLetters ("\\\\?\\".toList ++ row.volumeName ++ "\\".toList)
      return (letters.contains row.driveLetter, (key, letters) :: cache)

/-- Sessions and letters in the order of the source's map. -/
def identityLe (first second : Bool × Text) : Bool :=
  (!first.1 && second.1) || (first.1 == second.1 && decide (first.2 ≤ second.2))

/-- What the disambiguation of one letter carries from row to row. -/
structure Disambiguation where
  cache : MountCache
  dropped : List VolumeRow
  found : Option VolumeRow := none

/-- A current row must belong to the mounted volume; a row of the next session
that is bound by letter applies as it is. -/
def rowApplies (cache : MountCache) (row : VolumeRow) :
    StatefulAction WmiFailure W (Bool × MountCache) :=
  if !row.currentSession && row.bindByDriveLetter then pure (true, cache)
  else mountedAtDrive wmi cache row

def disambiguate (state : Disambiguation) (row : VolumeRow) :
    StatefulAction WmiFailure W Disambiguation := do
  let (applies, cache) ← rowApplies wmi state.cache row
  if !applies then return { state with cache := cache, dropped := row :: state.dropped }
  else
    match state.found with
    | some other =>
        .fail (.of .protocol "resolve UWF_Volume".toList
          ("ambiguous ".toList ++ sessionText row.currentSession ++ " session instances for ".toList
            ++ row.driveLetter ++ ": ".toList ++ other.volumeName ++ " and ".toList ++
            row.volumeName))
    | none => return { state with cache := cache, found := some row }

/-- Rows that share session and letter are told apart by the mounted volume. -/
def resolveIdentity (volumes : List VolumeRow) (state : MountCache × List VolumeRow)
    (identity : Bool × Text) : StatefulAction WmiFailure W (MountCache × List VolumeRow) := do
  let rows := volumes.filter fun row =>
    row.currentSession == identity.1 && row.driveLetter == identity.2
  if rows.length = 1 then return state
  else
    let result ← rows.foldlM (disambiguate wmi) ⟨state.1, state.2, none⟩
    return (result.cache, result.dropped)

def readVolumes : StatefulAction WmiFailure W (List VolumeRow) := do
  let rows ← wmi.queryInstances "SELECT * FROM UWF_Volume".toList
  let volumes ← .ofExcept (decodeVolumes rows)
  let identities := ((volumes.map fun row => (row.currentSession, row.driveLetter)).dedup).mergeSort
    identityLe
  let (_, dropped) ← identities.foldlM (resolveIdentity wmi volumes) ([], [])
  return volumes.filter fun row => !dropped.contains row

/-! ### Rereads -/

/-- Reads the row at a path again and decodes it. -/
def reread {Row : Type} (path : Text) (decode : WmiRow → Except WmiFailure Row) :
    StatefulAction WmiThrown W Row := do
  let row ← wmi.getObject path
  (StatefulAction.ofExcept (decode row)).mapError .failure

def rereadFilter (target : FilterRow) : StatefulAction WmiThrown W FilterRow :=
  reread wmi target.path decodeFilter

def rereadOverlay (target : OverlayRow) : StatefulAction WmiThrown W OverlayRow :=
  reread wmi target.path decodeOverlay

def differentSession (className : String) : WmiThrown :=
  .failure (.of .protocol ("reread ".toList ++ className.toList)
    "provider returned a different session instance".toList)

def rereadOverlayConfig (target : OverlayConfigRow) :
    StatefulAction WmiThrown W OverlayConfigRow := do
  let observed ← reread wmi target.path decodeOverlayConfig
  if observed.currentSession = target.currentSession then return observed
  else .fail (differentSession "UWF_OverlayConfig")

def rereadRegistryFilter (target : RegistryFilterRow) :
    StatefulAction WmiThrown W RegistryFilterRow := do
  let observed ← reread wmi target.path decodeRegistryFilter
  if observed.currentSession = target.currentSession then return observed
  else .fail (differentSession "UWF_RegistryFilter")

def rereadVolume (target : VolumeRow) : StatefulAction WmiThrown W VolumeRow := do
  let different : WmiThrown := .failure (.of .protocol "reread UWF_Volume".toList
    "provider returned a different volume instance".toList)
  match ← reread wmi target.path decodeManagedVolume with
  | none => .fail different
  | some observed =>
      if observed.currentSession = target.currentSession ∧
          observed.driveLetter = target.driveLetter ∧ observed.volumeName = target.volumeName then
        return observed
      else .fail different

/-- The path within the volume; a path on another volume is refused. -/
def normalizeVolumePath (row : VolumeRow) (fileName : Text) : StatefulAction WmiThrown W Text :=
  let split := Drive.split fileName
  if split.letter.isEmpty then pure fileName
  else if split.letter ≠ row.driveLetter then
    .fail (.failure (.standard ("path '".toList ++ fileName ++ "' belongs to ".toList ++
      split.letter ++ ", not target volume ".toList ++ row.driveLetter)))
  else pure split.rest

def fileInput (normalizedFileName : Text) : WmiRow :=
  [("FileName".toList, .string normalizedFileName)]

def registryInput (registryKey : Text) : WmiRow := [("RegistryKey".toList, .string registryKey)]

def sizeInput (sizeMb : UInt32) : WmiRow := [("size".toList, .uint sizeMb.toNat)]

def requireFound (output : WmiMethodOutput) : StatefulAction WmiThrown W Bool :=
  (StatefulAction.ofExcept (output.values.requireBool "bFound".toList)).mapError .failure

def findFileExclusion (row : VolumeRow) (fileName : Text) : StatefulAction WmiThrown W Bool := do
  requirePath row.path "find UWF file exclusion" "UWF_Volume"
  let inputs := fileInput (← normalizeVolumePath row fileName)
  let output ← wmi.callMethodRead row.path "FindExclusion".toList inputs
  requireFound output

def findRegistryExclusion (row : RegistryFilterRow) (registryKey : Text) :
    StatefulAction WmiThrown W Bool := do
  requirePath row.path "find UWF registry exclusion" "UWF_RegistryFilter"
  let output ← wmi.callMethodRead row.path "FindExclusion".toList (registryInput registryKey)
  requireFound output

/-! ## Writing -/

/-- A write: how it is called, the call, and the reread that confirms it. -/
structure VerifiedWrite (W : Type*) where
  operation : String
  path : Text
  className : String
  /-- What is prepared before the call; the call and the reread use it. -/
  prepare : StatefulAction WmiThrown W Text := pure []
  invoke : Text → StatefulAction WmiThrown W Unit
  observe : Text → StatefulAction WmiThrown W Bool

def VerifiedWrite.perform (write : VerifiedWrite W) : StatefulAction WmiThrown W Unit := do
  requirePath write.path write.operation write.className
  let prepared ← write.prepare
  invokeAndConfirm write.operation.toList (write.invoke prepared) (write.observe prepared)

/-- The write that each method of the provider classes performs. -/
def verifiedWrite : ProviderWrite → VerifiedWrite W
  | .enableFilter row =>
      { operation := "enable UWF", path := row.path, className := "UWF_Filter"
        invoke := fun _ => wmi.invokeMethod row.path "Enable".toList []
        observe := fun _ => do return (← rereadFilter wmi row).nextEnabled }
  | .disableFilter row =>
      { operation := "disable UWF", path := row.path, className := "UWF_Filter"
        invoke := fun _ => wmi.invokeMethod row.path "Disable".toList []
        observe := fun _ => do return !(← rereadFilter wmi row).nextEnabled }
  | .setWarningThreshold row sizeMb =>
      { operation := "set UWF warning threshold", path := row.path, className := "UWF_Overlay"
        invoke := fun _ => wmi.invokeMethod row.path "SetWarningThreshold".toList (sizeInput sizeMb)
        observe := fun _ => do return (← rereadOverlay wmi row).warningOverlayThreshold == sizeMb }
  | .setCriticalThreshold row sizeMb =>
      { operation := "set UWF critical threshold", path := row.path, className := "UWF_Overlay"
        invoke := fun _ =>
          wmi.invokeMethod row.path "SetCriticalThreshold".toList (sizeInput sizeMb)
        observe := fun _ => do return (← rereadOverlay wmi row).criticalOverlayThreshold == sizeMb }
  | .setType row type =>
      { operation := "set UWF overlay type", path := row.path, className := "UWF_OverlayConfig"
        invoke := fun _ => wmi.invokeMethod row.path "SetType".toList
          [("type".toList, .uint (if type = .ram then 0 else 1))]
        observe := fun _ => do return (← rereadOverlayConfig wmi row).type == type }
  | .setMaximumSize row sizeMb =>
      { operation := "set UWF overlay maximum size", path := row.path
        className := "UWF_OverlayConfig"
        invoke := fun _ => wmi.invokeMethod row.path "SetMaximumSize".toList (sizeInput sizeMb)
        observe := fun _ => do return (← rereadOverlayConfig wmi row).maximumSize == sizeMb }
  | .protectVolume row =>
      { operation := "protect UWF volume", path := row.path, className := "UWF_Volume"
        invoke := fun _ => wmi.invokeMethod row.path "Protect".toList []
        observe := fun _ => do return (← rereadVolume wmi row).isProtected }
  | .unprotect row =>
      { operation := "unprotect UWF volume", path := row.path, className := "UWF_Volume"
        invoke := fun _ => wmi.invokeMethod row.path "Unprotect".toList []
        observe := fun _ => do return !(← rereadVolume wmi row).isProtected }
  | .setBinding row binding =>
      let bindByDriveLetter := decide (binding = .driveLetter)
      { operation := "set UWF volume binding", path := row.path, className := "UWF_Volume"
        invoke := fun _ => wmi.invokeMethod row.path "SetBindByDriveLetter".toList
          [("bBindByDriveLetter".toList, .bool bindByDriveLetter)]
        observe := fun _ => do
          return (← rereadVolume wmi row).bindByDriveLetter == bindByDriveLetter }
  | .addFileExclusion row fileName =>
      { operation := "add UWF file exclusion", path := row.path, className := "UWF_Volume"
        prepare := normalizeVolumePath row fileName
        invoke := fun normalized =>
          wmi.invokeMethod row.path "AddExclusion".toList (fileInput normalized)
        observe := fun normalized => findFileExclusion wmi row normalized }
  | .removeFileExclusion row fileName =>
      { operation := "remove UWF file exclusion", path := row.path, className := "UWF_Volume"
        prepare := normalizeVolumePath row fileName
        invoke := fun normalized =>
          wmi.invokeMethod row.path "RemoveExclusion".toList (fileInput normalized)
        observe := fun normalized => do return !(← findFileExclusion wmi row normalized) }
  | .addRegistryExclusion row registryKey =>
      { operation := "add UWF registry exclusion", path := row.path
        className := "UWF_RegistryFilter"
        invoke := fun _ =>
          wmi.invokeMethod row.path "AddExclusion".toList (registryInput registryKey)
        observe := fun _ => findRegistryExclusion wmi row registryKey }
  | .removeRegistryExclusion row registryKey =>
      { operation := "remove UWF registry exclusion", path := row.path
        className := "UWF_RegistryFilter"
        invoke := fun _ =>
          wmi.invokeMethod row.path "RemoveExclusion".toList (registryInput registryKey)
        observe := fun _ => do return !(← findRegistryExclusion wmi row registryKey) }
  | .setPersistence row persistence =>
      { operation := "set UWF registry persistence", path := row.path
        className := "UWF_RegistryFilter"
        invoke := fun _ => (wmi.putInstance "UWF_RegistryFilter".toList
          [("CurrentSession".toList, .bool row.currentSession),
            ("PersistDomainSecretKey".toList, .bool persistence.domainSecretKey),
            ("PersistTSCAL".toList, .bool persistence.terminalServicesClientAccessLicense)]
          .updateOnly).mapError .failure
        observe := fun _ => do
          let observed ← rereadRegistryFilter wmi row
          return observed.persistDomainSecretKey == persistence.domainSecretKey &&
            observed.persistTSCAL == persistence.terminalServicesClientAccessLicense }

/-! ### Registering a volume -/

/-- Backslashes and quotes are escaped in the value of an object path. -/
def escapeWmiPathValue (value : Text) : Text :=
  value.flatMap fun character =>
    if character = '\\' ∨ character = '"' then ['\\', character] else [character]

def findVolume (volumes : List VolumeRow) (currentSession : Bool) (driveLetter : Text) :
    Option VolumeRow :=
  volumes.find? fun row => row.currentSession == currentSession && row.driveLetter == driveLetter

def registrationError (detail : Text) : WmiFailure :=
  .of .stateVerification "register UWF volume".toList detail

def nextSessionProperties (current : VolumeRow) (normalizedDrive : Text) : WmiRow :=
  [("CurrentSession".toList, .bool false), ("DriveLetter".toList, .string normalizedDrive),
    ("VolumeName".toList, .string current.volumeName)]

def nextSessionPath (current : VolumeRow) (normalizedDrive : Text) : Text :=
  "UWF_Volume.CurrentSession=FALSE,DriveLetter=\"".toList ++ escapeWmiPathValue normalizedDrive ++
    "\",VolumeName=\"".toList ++ escapeWmiPathValue current.volumeName ++ "\"".toList

/-- Whether an instance has the requested identity of the next session. -/
def isNextSessionEntry (current : VolumeRow) (normalizedDrive : Text) (row : VolumeRow) : Bool :=
  !row.currentSession && row.driveLetter == normalizedDrive &&
    row.volumeName == current.volumeName

/-- Why a registration could not be reread. -/
def unreadEntryDetail (outcome : VolumeRegistrationDisposition) (uncertainFailure : Text) : Text :=
  match outcome with
  | .confirmedAfterUncertainWrite => "write outcome was uncertain and the created instance could not be confirmed; original failure: ".toList ++ uncertainFailure
  | .concurrentlyCreated => "the instance was concurrently created, but its state could not be confirmed".toList
  | _ => "provider accepted the registration, but the created instance could not be confirmed".toList

def unknownFailureDetail (outcome : VolumeRegistrationDisposition) (uncertainFailure : Text) :
    Text :=
  match outcome with
  | .confirmedAfterUncertainWrite => "write outcome was uncertain and state confirmation failed with a non-standard exception; original failure: ".toList ++ uncertainFailure
  | _ => "registration state confirmation failed with a non-standard exception".toList

def otherEntryDetail (outcome : VolumeRegistrationDisposition) (uncertainFailure : Text) : Text :=
  match outcome with
  | .confirmedAfterUncertainWrite => "write outcome was uncertain and the observed instance does not match the requested next-session identity; original failure: ".toList ++ uncertainFailure
  | .concurrentlyCreated => "the concurrently created instance does not match the requested next-session identity".toList
  | _ => "provider accepted the registration, but the observed instance does not match the requested next-session identity".toList

def explainReread (detail : Text) (failure : WmiFailure) : Text :=
  detail ++ "; reread failure: ".toList ++ failure.what

/-- What the reread found is the requested instance, or the registration cannot be confirmed. -/
def confirmRegistration (current : VolumeRow) (normalizedDrive : Text)
    (outcome : VolumeRegistrationDisposition) (uncertainFailure : Text) :
    StatefulAction WmiFailure W VolumeRegistration := fun state =>
  match reread wmi (nextSessionPath current normalizedDrive) decodeManagedVolume state with
  | (.error (.failure failure), state) =>
      (.error (registrationError (explainReread (unreadEntryDetail outcome uncertainFailure)
        failure)), state)
  | (.error .other, state) =>
      (.error (registrationError (unknownFailureDetail outcome uncertainFailure)), state)
  | (.ok observed, state) =>
      match observed.filter (isNextSessionEntry current normalizedDrive) with
      | some row => (.ok ⟨row, outcome⟩, state)
      | none => (.error (registrationError (otherEntryDetail outcome uncertainFailure)), state)

/-- Creates the instance of the next session; one that exists by now was created
concurrently. -/
def createNextSessionEntry (current : VolumeRow) (normalizedDrive : Text) :
    StatefulAction WmiFailure W VolumeRegistration := fun state =>
  match wmi.putInstance "UWF_Volume".toList (nextSessionProperties current normalizedDrive)
      .createOnly state with
  | (.ok (), state) => confirmRegistration wmi current normalizedDrive .created [] state
  | (.error (.wmi .invocationUncertain what), state) =>
      confirmRegistration wmi current normalizedDrive .confirmedAfterUncertainWrite what state
  | (.error (.wmi (.infrastructure hresult) what), state) =>
      if isAlreadyExists hresult then
        confirmRegistration wmi current normalizedDrive .concurrentlyCreated [] state
      else (.error (.wmi (.infrastructure hresult) what), state)
  | (.error failure, state) => (.error failure, state)

def ensureNextSessionEntry (driveLetter : Text) :
    StatefulAction WmiFailure W VolumeRegistration := do
  let normalizedDrive := Drive.normalize driveLetter
  if normalizedDrive.isEmpty then
    .fail (.standard ("invalid drive letter: ".toList ++ driveLetter))
  else
    let volumes ← readVolumes wmi
    match findVolume volumes false normalizedDrive with
    | some existing => return ⟨existing, .alreadyPresent⟩
    | none =>
        match findVolume volumes true normalizedDrive with
        | none =>
            .fail (.of .protocol "register UWF volume".toList
              ("no current-session instance exists for ".toList ++ normalizedDrive))
        | some current => createNextSessionEntry wmi current normalizedDrive

/-! ## The provider of an apply -/

def uwfRequest : (request : ProviderRequest) → StatefulAction WmiFailure W request.Response
  | .ensureConnected => wmi.ensureConnected
  | .readFilter => readFilter wmi
  | .readOverlay => readOverlay wmi
  | .readOverlayConfig session => readOverlayConfig wmi session
  | .readVolumes => readVolumes wmi
  | .ensureNextSessionEntry driveLetter => ensureNextSessionEntry wmi driveLetter
  | .readRegistryFilter session => readRegistryFilter wmi session

def uwfProvider : ProviderOperations W where
  request := fun request => (uwfRequest wmi request).mapError WmiFailure.error
  write := fun write => (verifiedWrite wmi write).perform.mapError WmiThrown.thrown

end UwfManager
