import UwfManager.Staging.FileStagingDraft

/-!
# Conflicts between staged paths and exclusions

The policy of a volume keeps the exclusions of the volume and the staged
paths, both in normal form, and finds the first path of one list that overlaps
a candidate for the other.
-/

namespace UwfManager

structure FileStagingConflictPolicy where
  fileExclusions : List Text := []
  stagedPaths : List Text := []
  deriving DecidableEq

namespace FileStagingConflictPolicy

variable (qt : Qt)

def normalizedPath (path : Text) : Text := Paths.normalize qt (qt.trimmed path)

def normalizeUnique (paths : List Text) : List Text :=
  qt.sortUnique ((paths.map (normalizedPath qt)).filter fun path => !path.isEmpty)

def firstConflict (candidate : Text) (existing : List Text) : Option Text :=
  existing.find? fun path => Paths.overlap qt (normalizedPath qt candidate) path

def setFileExclusions (policy : FileStagingConflictPolicy) (exclusions : List Text) :
    FileStagingConflictPolicy :=
  { policy with fileExclusions := normalizeUnique qt exclusions }

def setStagedEntries (policy : FileStagingConflictPolicy) (entries : List FileStagingEntry) :
    FileStagingConflictPolicy :=
  { policy with stagedPaths := normalizeUnique qt (entries.map (·.path)) }

def conflictingExclusion (policy : FileStagingConflictPolicy) (stagedPath : Text) : Option Text :=
  firstConflict qt stagedPath policy.fileExclusions

def conflictingStagedPath (policy : FileStagingConflictPolicy) (exclusionPath : Text) :
    Option Text :=
  firstConflict qt exclusionPath policy.stagedPaths

end FileStagingConflictPolicy

end UwfManager
