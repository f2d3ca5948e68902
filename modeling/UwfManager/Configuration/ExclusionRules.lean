import Mathlib.Data.List.Infix
import UwfManager.Paths.PathPolicy

/-!
# Rules for exclusions

Files and registry keys that UWF does not allow as exclusions, with the reason
that is shown to the user.
-/

namespace UwfManager

/-! ## `UwfConstraints.h` -/

def forbiddenVolumeRootFiles : List Text :=
  ["\\PAGEFILE.SYS".toList, "\\SWAPFILE.SYS".toList, "\\HIBERFIL.SYS".toList]

def forbiddenDirWindows : Text := "\\WINDOWS".toList

def forbiddenDirWindowsSystem32 : Text := "\\WINDOWS\\SYSTEM32".toList

def forbiddenDirWindowsDrivers : Text := "\\WINDOWS\\SYSTEM32\\DRIVERS".toList

def forbiddenSystemFiles : List Text :=
  ["\\WINDOWS\\SYSTEM32\\CONFIG\\DEFAULT".toList,
    "\\WINDOWS\\SYSTEM32\\CONFIG\\SAM".toList,
    "\\WINDOWS\\SYSTEM32\\CONFIG\\SECURITY".toList,
    "\\WINDOWS\\SYSTEM32\\CONFIG\\SOFTWARE".toList,
    "\\WINDOWS\\SYSTEM32\\CONFIG\\SYSTEM".toList,
    "\\WINDOWS\\BOOTSTAT.DAT".toList,
    "\\EFI\\MICROSOFT\\BOOT\\BOOTSTAT.DAT".toList,
    "\\BOOT\\BOOTSTAT.DAT".toList]

def usersDirName : Text := "USERS".toList

def perUserRegistryHive : Text := "NTUSER.DAT".toList

def allowedRegistryRootPrefixes : List Text :=
  ["HKEY_LOCAL_MACHINE\\BCD00000000\\".toList,
    "HKEY_LOCAL_MACHINE\\SYSTEM\\".toList,
    "HKEY_LOCAL_MACHINE\\SOFTWARE\\".toList,
    "HKEY_LOCAL_MACHINE\\SAM\\".toList,
    "HKEY_LOCAL_MACHINE\\SECURITY\\".toList,
    "HKEY_LOCAL_MACHINE\\COMPONENTS\\".toList]

def forbiddenRegistryKeyMachineAccount : Text :=
  "HKEY_LOCAL_MACHINE\\SECURITY\\POLICY\\SECRETS\\$MACHINE.ACC".toList

/-! ## Files -/

variable (qt : Qt)

/-- Removes trailing backslashes as long as a character is left. -/
def chopBackslashes : Text → Text
  | [] => []
  | first :: rest => first :: rest.rdropWhile (· == '\\')

def isUserRegistryHive (rel : Text) : Bool :=
  ('\\' :: usersDirName ++ ['\\']).isPrefixOf rel &&
    ('\\' :: perUserRegistryHive).isSuffixOf rel &&
    match (rel.splitOn '\\').filter fun part => !part.isEmpty with
    | [users, _, hive] => users == usersDirName && hive == perUserRegistryHive
    | _ => false

/-- `FileExclusionRules::rejectionReason`; `none` is the empty reason. -/
def fileRejectionReason (rawPath volumeDl systemDrive : Text) : Option Message :=
  let volume := Drive.normalize volumeDl
  let upper := qt.toUpper (Paths.normalizeOn qt volume (qt.trimmed rawPath))
  if upper.isEmpty then none
  else if upper = volume ∨ upper = volume ++ ['\\'] then
    some (.withArgs "Cannot add an entire volume (%1) to the exclusion list." [.literal volume])
  else
    let withoutDrive := if volume.isPrefixOf upper then upper.drop volume.length else upper
    let rooted := if withoutDrive.head? = some '\\' then withoutDrive else '\\' :: withoutDrive
    let rel := chopBackslashes rooted
    let isSystemVolume := !volume.isEmpty && volume == Drive.normalize systemDrive
    if forbiddenVolumeRootFiles.contains rel then
      some (.plain "The pagefile, swapfile and hibernation file cannot be excluded; UWF itself depends on these system files.")
    else if !isSystemVolume then none
    else if rel = forbiddenDirWindows then
      some (.plain "The entire \\Windows directory cannot be excluded.")
    else if rel = forbiddenDirWindowsSystem32 then
      some (.plain "The entire \\Windows\\System32 directory cannot be excluded.")
    else if rel = forbiddenDirWindowsDrivers then
      some (.plain "The entire \\Windows\\System32\\Drivers directory cannot be excluded.")
    else if forbiddenSystemFiles.contains rel then
      some (.withArgs "This critical system file cannot be excluded: %1"
        [.literal (toLowerAscii rel)])
    else if isUserRegistryHive rel then
      some (.plain "The per-user registry file NTUSER.DAT cannot be excluded.")
    else none

/-! ## Registry keys -/

inductive RegExclusionClass where
  | allowed
  | machineAccount
  | container
  | outOfScope
  deriving DecidableEq, Repr

def classifyRegistryExclusion (key : Text) : RegExclusionClass :=
  let upper := toUpperAscii (RegKey.normalize key)
  if upper.isEmpty then .outOfScope
  else if upper = forbiddenRegistryKeyMachineAccount then .machineAccount
  else if allowedRegistryRootPrefixes.any fun allowed =>
      decide (allowed.length < upper.length) && allowed.isPrefixOf upper then .allowed
  else
    let withSep := upper ++ ['\\']
    if allowedRegistryRootPrefixes.any fun allowed =>
        withSep.isPrefixOf allowed || allowed.isPrefixOf withSep then .container
    else .outOfScope

/-- `RegistryExclusionRules::rejectionReason`; `none` is the empty reason. -/
def registryRejectionReason (rawKey : Text) : Option Message :=
  let input := chopBackslashes (qt.trimmed rawKey)
  if input.isEmpty then some (.plain "Registry key cannot be empty.")
  else if input.head? = some '\\' then
    some (.plain "Registry key cannot start with a backslash.")
  else if ['\\', '\\'] <:+: input then
    some (.plain "The path contains consecutive backslashes; this is not valid.")
  else if input.contains '/' then
    some (.plain "Registry paths use backslash `\\` as the separator; do not use forward slash `/`.")
  else if input.any fun c => decide (c.toNat < 0x20) then
    some (.plain "The path contains invisible control characters; this is not valid.")
  else
    match classifyRegistryExclusion input with
    | .allowed => none
    | .machineAccount =>
        some (.plain "HKLM\\SECURITY\\Policy\\Secrets\\$MACHINE.ACC cannot be excluded; this is the domain machine account secret, which UWF documentation explicitly forbids excluding.")
    | .container | .outOfScope =>
        some (.plain "UWF only allows exclusions under the following top-level registry keys. Please pick a specific subkey under one of them:\n  HKLM\\BCD00000000\n  HKLM\\SYSTEM\n  HKLM\\SOFTWARE\n  HKLM\\SAM\n  HKLM\\SECURITY\n  HKLM\\COMPONENTS")

end UwfManager
