import UwfManager.Shared.Text

/-!
# The UWF domain model

`current` is the running session and `next` the one that takes effect after a
restart.  A `std::map` is the list of its entries in iteration order; nothing
below depends on that order being the key order.
-/

namespace UwfManager

inductive OverlayType where
  | unknown
  | ram
  | disk
  deriving DecidableEq, Repr

structure FilterState where
  enabled : Bool := false
  deriving DecidableEq, Repr

/-- A threshold of `0` switches its event off. -/
structure OverlayConfig where
  type : OverlayType := .unknown
  maximumSizeMb : UInt32 := 0
  warningThresholdMb : UInt32 := 0
  criticalThresholdMb : UInt32 := 0
  deriving DecidableEq, Repr

/-- A field-wise change; `none` leaves the field as it is. -/
structure OverlayConfigDelta where
  type : Option OverlayType := none
  maximumSizeMb : Option UInt32 := none
  warningThresholdMb : Option UInt32 := none
  criticalThresholdMb : Option UInt32 := none
  deriving DecidableEq, Repr

namespace OverlayConfigDelta

def empty (delta : OverlayConfigDelta) : Bool :=
  delta.type.isNone && delta.maximumSizeMb.isNone &&
    delta.warningThresholdMb.isNone && delta.criticalThresholdMb.isNone

/-- The two fields that can be written only while the filter is off. -/
def touchesOverlayConfig (delta : OverlayConfigDelta) : Bool :=
  delta.type.isSome || delta.maximumSizeMb.isSome

/-- The configuration the change asks for. -/
def applyTo (delta : OverlayConfigDelta) (baseline : OverlayConfig) : OverlayConfig where
  type := delta.type.getD baseline.type
  maximumSizeMb := delta.maximumSizeMb.getD baseline.maximumSizeMb
  warningThresholdMb := delta.warningThresholdMb.getD baseline.warningThresholdMb
  criticalThresholdMb := delta.criticalThresholdMb.getD baseline.criticalThresholdMb

end OverlayConfigDelta

/-- `UwfConstraints.h`: a disk overlay holds at least this many megabytes. -/
def diskOverlayMinSizeMb : UInt32 := 1024

namespace OverlayConfig

def StorageValid (config : OverlayConfig) : Prop :=
  config.type = .disk → diskOverlayMinSizeMb ≤ config.maximumSizeMb

def ThresholdsValid (config : OverlayConfig) : Prop :=
  config.warningThresholdMb = 0 ∨ config.criticalThresholdMb = 0 ∨
    config.warningThresholdMb < config.criticalThresholdMb

/-- The states UWF accepts: an active warning lies below an active critical
threshold, and a disk overlay is large enough. -/
structure Valid (config : OverlayConfig) : Prop where
  storage : config.StorageValid
  thresholds : config.ThresholdsValid

instance (config : OverlayConfig) : Decidable config.StorageValid :=
  inferInstanceAs (Decidable (_ → _))

instance (config : OverlayConfig) : Decidable config.ThresholdsValid :=
  inferInstanceAs (Decidable (_ ∨ _))

instance (config : OverlayConfig) : Decidable config.Valid :=
  decidable_of_iff (config.StorageValid ∧ config.ThresholdsValid)
    ⟨fun h => ⟨h.1, h.2⟩, fun h => ⟨h.storage, h.thresholds⟩⟩

end OverlayConfig

structure VolumeRecord where
  volumeName : Text
  driveLetter : Text
  isProtected : Bool := false
  bindByDriveLetter : Bool := true
  deriving DecidableEq

structure SessionSnapshot where
  filter : FilterState := {}
  overlay : OverlayConfig := {}
  volumes : List VolumeRecord := []
  fileExclusions : List (Text × List Text) := []
  registryExclusions : List Text := []
  persistDomainSecretKey : Bool := false
  persistTSCAL : Bool := false
  deriving DecidableEq

structure UwfSnapshot where
  current : SessionSnapshot := {}
  next : SessionSnapshot := {}
  deriving DecidableEq

/-- The edits that were collected and not yet written. -/
structure PendingChanges where
  setFilterEnabled : Option Bool := none
  setOverlay : OverlayConfigDelta := {}
  volumeProtect : List (Text × Bool) := []
  volumeBindByVolumeName : List (Text × Bool) := []
  addFileExclusions : List (Text × List Text) := []
  removeFileExclusions : List (Text × List Text) := []
  addRegistryExclusions : List Text := []
  removeRegistryExclusions : List Text := []
  setPersistDomainSecretKey : Option Bool := none
  setPersistTSCAL : Option Bool := none
  deriving DecidableEq

end UwfManager
