import UwfManager.Configuration.UwfmgrCommands
import UwfManager.Core.OverlayWritePlan
import UwfManager.Library.KeyedWrites
import UwfManager.Paths.PathPolicy

/-!
# Exporting the planned session

The commands that reproduce a session, and the merge of a baseline session
with the pending changes.  A command is read as a write of one setting, so an
exported list is judged by what replaying it leaves under each target.
-/

namespace UwfManager.Commands

/-! ## Rendering settings as commands -/

def renderOverlayField (changes : OverlayConfigDelta) : OverlayField → UwfmgrCommand
  | .type =>
      makeCmd .overlaySetType
        [if changes.type = some .ram then "RAM".toList else "Disk".toList]
  | .maximumSize =>
      makeCmd .overlaySetSize [Nat.toDigits 10 (changes.maximumSizeMb.getD 0).toNat]
  | .warningThreshold =>
      makeCmd .overlaySetWarningThreshold
        [Nat.toDigits 10 (changes.warningThresholdMb.getD 0).toNat]
  | .criticalThreshold =>
      makeCmd .overlaySetCriticalThreshold
        [Nat.toDigits 10 (changes.criticalThresholdMb.getD 0).toNat]

def renderOverlayChanges (baseline : OverlayConfig) (changes : OverlayConfigDelta) :
    List UwfmgrCommand :=
  (planOverlayWrites baseline changes).map fun step =>
    { renderOverlayField changes step.field with requiresPrevious := step.requiresPrevious }

def filterCommand (enabled : Bool) : UwfmgrCommand :=
  makeCmd (if enabled then .filterEnable else .filterDisable)

def volumeCommand (driveLetter : Text) (isProtected : Bool) : UwfmgrCommand :=
  makeCmd (if isProtected then .volumeProtect else .volumeUnprotect) [driveLetter]

def renderPendingChanges (c : PendingChanges) (baseline : OverlayConfig) :
    List UwfmgrCommand :=
  (c.setFilterEnabled.toList.map filterCommand) ++
    renderOverlayChanges baseline c.setOverlay ++
    (c.volumeProtect.map fun entry => volumeCommand entry.1 entry.2) ++
    (c.addFileExclusions.flatMap (·.2)).map (fun p => makeCmd .fileAddExclusion [p]) ++
    (c.removeFileExclusions.flatMap (·.2)).map (fun p => makeCmd .fileRemoveExclusion [p]) ++
    c.addRegistryExclusions.map (fun k => makeCmd .registryAddExclusion [k]) ++
    c.removeRegistryExclusions.map (fun k => makeCmd .registryRemoveExclusion [k])

/-- The delta that sets every field. -/
def allOverlay (config : OverlayConfig) : OverlayConfigDelta :=
  ⟨some config.type, some config.maximumSizeMb, some config.warningThresholdMb,
    some config.criticalThresholdMb⟩

def renderSession (s : SessionSnapshot) : List UwfmgrCommand :=
  filterCommand s.filter.enabled :: renderOverlayChanges s.overlay (allOverlay s.overlay) ++
    ((s.volumes.filter fun v => !v.driveLetter.isEmpty).map fun v =>
      volumeCommand v.driveLetter v.isProtected) ++
    (s.fileExclusions.flatMap (·.2)).map (fun p => makeCmd .fileAddExclusion [p]) ++
    s.registryExclusions.map (fun k => makeCmd .registryAddExclusion [k])

/-! ## Targets -/

/-- A setting that can be written, under the kind of the command that adds it. -/
abbrev Target := UwfmgrKind × Text

def fileTarget (path : Text) : Target :=
  (.fileAddExclusion, toLowerAscii (Paths.stripTrailingSeparators
    (path.map fun c => if c = '/' then '\\' else c)))

def registryTarget (key : Text) : Target :=
  (.registryAddExclusion, toLowerAscii (RegKey.normalize key))

def volumeTarget (driveLetter : Text) : Target :=
  (.volumeProtect, Drive.normalize driveLetter)

def commandTarget (command : UwfmgrCommand) : Target :=
  let argument := command.args.headD []
  match command.kind with
  | .filterEnable | .filterDisable => (.filterEnable, [])
  | .volumeProtect | .volumeUnprotect => volumeTarget argument
  | .fileAddExclusion | .fileRemoveExclusion => fileTarget argument
  | .registryAddExclusion | .registryRemoveExclusion => registryTarget argument
  | kind => (kind, [])

/-! ## Merging -/

/-- The commands merged so far, with the position of each target. -/
structure PlannedCommands where
  commands : List UwfmgrCommand
  targets : List (Target × ℕ)

/-- `std::map::emplace`: an entry that exists is kept. -/
def emplaceTarget (targets : List (Target × ℕ)) (target : Target) (index : ℕ) :
    List (Target × ℕ) :=
  if (targets.lookup target).isSome then targets else targets ++ [(target, index)]

/-- The position of the first command of each target. -/
def indexTargets (commands : List UwfmgrCommand) : List (Target × ℕ) :=
  commands.zipIdx.foldl (fun targets entry =>
    emplaceTarget targets (commandTarget entry.1) entry.2) []

def mergeCommand (planned : PlannedCommands) (command : UwfmgrCommand) : PlannedCommands :=
  match planned.targets.lookup (commandTarget command) with
  | some index => { planned with commands := planned.commands.set index command }
  | none =>
      ⟨planned.commands ++ [command],
        planned.targets ++ [(commandTarget command, planned.commands.length)]⟩

/-- The overlay commands are planned again for the merged values and copied
over the four commands after the first one. -/
def renderPlannedSession (baseline : SessionSnapshot) (changes : PendingChanges) :
    List UwfmgrCommand :=
  let commands := renderSession baseline
  let merged := ((renderPendingChanges changes baseline.overlay).foldl mergeCommand
    ⟨commands, indexTargets commands⟩).commands
  let overlay := renderOverlayChanges baseline.overlay
    (allOverlay (changes.setOverlay.applyTo baseline.overlay))
  merged.take 1 ++ overlay ++ merged.drop (1 + overlay.length)

/-! ## Settings -/

inductive SettingValue where
  | enabled (value : Bool)
  | overlayType (value : OverlayType)
  | megabytes (value : ℕ)
  | excluded (value : Bool)
  | unreadable
  deriving DecidableEq, Repr

/-- The value a command writes to its target. -/
def commandValue (command : UwfmgrCommand) : SettingValue :=
  let argument := command.args.headD []
  match command.kind with
  | .filterEnable | .volumeProtect => .enabled true
  | .filterDisable | .volumeUnprotect => .enabled false
  | .overlaySetType =>
      if argument = "RAM".toList then .overlayType .ram
      else if argument = "Disk".toList then .overlayType .disk
      else .unreadable
  | .overlaySetSize | .overlaySetWarningThreshold | .overlaySetCriticalThreshold =>
      (parseUInt argument).elim .unreadable .megabytes
  | .fileAddExclusion | .registryAddExclusion => .excluded true
  | .fileRemoveExclusion | .registryRemoveExclusion => .excluded false
  | .unknown => .unreadable

def commandSetting (command : UwfmgrCommand) : Target × SettingValue :=
  (commandTarget command, commandValue command)

def overlayFields : List OverlayField :=
  [.type, .maximumSize, .warningThreshold, .criticalThreshold]

def overlayTarget : OverlayField → Target
  | .type => (.overlaySetType, [])
  | .maximumSize => (.overlaySetSize, [])
  | .warningThreshold => (.overlaySetWarningThreshold, [])
  | .criticalThreshold => (.overlaySetCriticalThreshold, [])

def overlayValue (config : OverlayConfig) : OverlayField → SettingValue
  | .type => .overlayType config.type
  | .maximumSize => .megabytes config.maximumSizeMb.toNat
  | .warningThreshold => .megabytes config.warningThresholdMb.toNat
  | .criticalThreshold => .megabytes config.criticalThresholdMb.toNat

def overlaySettings (config : OverlayConfig) (fields : List OverlayField) :
    List (Target × SettingValue) :=
  fields.map fun field => (overlayTarget field, overlayValue config field)

/-- The volumes and exclusions of a session. -/
def sessionEntries (s : SessionSnapshot) : List (Target × SettingValue) :=
  ((s.volumes.filter fun v => !v.driveLetter.isEmpty).map fun v =>
      (volumeTarget v.driveLetter, .enabled v.isProtected)) ++
    (s.fileExclusions.flatMap (·.2)).map (fun p => (fileTarget p, .excluded true)) ++
    s.registryExclusions.map (fun k => (registryTarget k, .excluded true))

/-- The settings a session holds. -/
def sessionSettings (s : SessionSnapshot) : List (Target × SettingValue) :=
  ((.filterEnable, []), .enabled s.filter.enabled) ::
    overlaySettings s.overlay overlayFields ++ sessionEntries s

def pendingEntries (c : PendingChanges) : List (Target × SettingValue) :=
  (c.volumeProtect.map fun entry => (volumeTarget entry.1, .enabled entry.2)) ++
    (c.addFileExclusions.flatMap (·.2)).map (fun p => (fileTarget p, .excluded true)) ++
    (c.removeFileExclusions.flatMap (·.2)).map (fun p => (fileTarget p, .excluded false)) ++
    c.addRegistryExclusions.map (fun k => (registryTarget k, .excluded true)) ++
    c.removeRegistryExclusions.map (fun k => (registryTarget k, .excluded false))

/-- The settings the pending changes give a value to.  The overlay fields they
set are read off the configuration the change asks for. -/
def pendingSettings (c : PendingChanges) (baseline : OverlayConfig) :
    List (Target × SettingValue) :=
  (c.setFilterEnabled.toList.map fun value => ((.filterEnable, []), .enabled value)) ++
    overlaySettings (c.setOverlay.applyTo baseline)
      (overlayFields.filter c.setOverlay.touches) ++
    pendingEntries c

/-- The value a target has in the planned session. -/
def plannedValue (baseline : SessionSnapshot) (changes : PendingChanges) (target : Target) :
    Option SettingValue :=
  (KeyedWrites.lastValue target (pendingSettings changes baseline.overlay)).or
    (KeyedWrites.lastValue target (sessionSettings baseline))

def UwfmgrCommand.addsExclusion (command : UwfmgrCommand) : Prop :=
  command.kind = .fileAddExclusion ∨ command.kind = .registryAddExclusion

def UwfmgrCommand.removesExclusion (command : UwfmgrCommand) : Prop :=
  command.kind = .fileRemoveExclusion ∨ command.kind = .registryRemoveExclusion

/-- The commands reproduce the planned session: from every state they leave
the planned value under each target, they write no target twice, and they add
no exclusion that was removed before. -/
structure ReproducesPlan (baseline : SessionSnapshot) (changes : PendingChanges)
    (commands : List UwfmgrCommand) : Prop where
  replayed : ∀ state target, KeyedWrites.replay (commands.map commandSetting) state target =
    (plannedValue baseline changes target).or (state target)
  once : (commands.map commandTarget).Nodup
  not_added_again : commands.Pairwise fun earlier later =>
    earlier.removesExclusion → later.addsExclusion →
      commandTarget earlier ≠ commandTarget later

/-- No two entries of the session are the same target. -/
structure DistinctTargets (s : SessionSnapshot) : Prop where
  volumes : ((s.volumes.filter fun v => !v.driveLetter.isEmpty).map fun v =>
    volumeTarget v.driveLetter).Nodup
  fileExclusions : ((s.fileExclusions.flatMap (·.2)).map fileTarget).Nodup
  registryExclusions : (s.registryExclusions.map registryTarget).Nodup

/-! ## The position map -/

/-- The map holds the position of the first command of each target. -/
def Indexed (planned : PlannedCommands) : Prop :=
  ∀ target, planned.targets.lookup target =
    (planned.commands.map commandTarget).findIdx? (fun other => other = target)

theorem lookup_concat (targets : List (Target × ℕ)) (added : Target) (index : ℕ)
    (target : Target) :
    (targets ++ [(added, index)]).lookup target =
      (targets.lookup target).or (if added = target then some index else none) := by
  induction targets with
  | nil =>
      by_cases hadded : added = target
      · simp [hadded]
      · have hne : (target == added) = false := beq_false_of_ne (Ne.symm hadded)
        simp [List.lookup_cons, hne, hadded]
  | cons first rest ih =>
      rw [List.cons_append, List.lookup_cons, List.lookup_cons, ih]
      split <;> simp

theorem findIdx?_concat (commands : List UwfmgrCommand) (command : UwfmgrCommand)
    (target : Target) :
    ((commands ++ [command]).map commandTarget).findIdx? (fun other => other = target) =
      ((commands.map commandTarget).findIdx? (fun other => other = target)).or
        (if commandTarget command = target then some commands.length else none) := by
  rw [List.map_append, List.findIdx?_append]
  by_cases htarget : commandTarget command = target <;> simp [htarget]

theorem indexed_indexTargets (commands : List UwfmgrCommand) :
    Indexed ⟨commands, indexTargets commands⟩ := by
  induction commands using List.reverseRecOn with
  | nil => intro target; rfl
  | append_singleton commands command ih =>
      intro target
      have hstep : indexTargets (commands ++ [command]) =
          emplaceTarget (indexTargets commands) (commandTarget command) commands.length := by
        simp [indexTargets, List.zipIdx_append]
      have hbefore := ih target
      have hcommand := ih (commandTarget command)
      simp only at hbefore hcommand
      rw [hstep, findIdx?_concat, ← hbefore, emplaceTarget]
      split_ifs with hpresent htarget htarget
      · obtain ⟨index, hindex⟩ := Option.isSome_iff_exists.1 hpresent
        rw [← htarget, hindex]
        rfl
      · rw [Option.or_none]
      · rw [lookup_concat, if_pos htarget]
      · rw [lookup_concat, if_neg htarget]

theorem mergeCommand_commands {planned : PlannedCommands} (command : UwfmgrCommand)
    (hindexed : Indexed planned) :
    (mergeCommand planned command).commands =
      KeyedWrites.upsert commandSetting command planned.commands := by
  have hupsert : KeyedWrites.upsert commandSetting command planned.commands =
      match (planned.commands.map commandTarget).findIdx? (fun other => other = commandTarget command) with
      | some index => planned.commands.set index command
      | none => planned.commands ++ [command] :=
    KeyedWrites.upsert_eq_findIdx? commandSetting command planned.commands
  rw [mergeCommand, hindexed (commandTarget command), hupsert]
  cases (planned.commands.map commandTarget).findIdx? (fun other => other = commandTarget command) <;> rfl

theorem indexed_mergeCommand {planned : PlannedCommands} (command : UwfmgrCommand)
    (hindexed : Indexed planned) : Indexed (mergeCommand planned command) := by
  intro target
  have hlookup := hindexed (commandTarget command)
  rw [mergeCommand_commands command hindexed]
  cases hfound : planned.targets.lookup (commandTarget command) with
  | some index =>
      have hmem : commandTarget command ∈ planned.commands.map commandTarget := by
        by_contra hmem
        rw [hfound, eq_comm, List.findIdx?_eq_none_iff.2] at hlookup
        · exact absurd hlookup (by simp)
        · intro other hother
          exact decide_eq_false fun heq => hmem (heq ▸ hother)
      have hkeys : (KeyedWrites.upsert commandSetting command planned.commands).map
          commandTarget = planned.commands.map commandTarget :=
        KeyedWrites.keys_upsert_of_mem commandSetting hmem
      rw [hkeys, ← hindexed target, mergeCommand, hfound]
  | none =>
      have hmem : commandTarget command ∉ planned.commands.map commandTarget := by
        rw [hfound, eq_comm, List.findIdx?_eq_none_iff] at hlookup
        intro hmem
        simpa using hlookup _ hmem
      have hkeys : (KeyedWrites.upsert commandSetting command planned.commands).map
          commandTarget = (planned.commands ++ [command]).map commandTarget := by
        rw [List.map_append]
        exact KeyedWrites.keys_upsert_of_not_mem commandSetting hmem
      rw [hkeys, findIdx?_concat, ← hindexed target, mergeCommand, hfound]
      exact lookup_concat _ _ _ _

theorem foldl_mergeCommand {planned : PlannedCommands} (updates : List UwfmgrCommand)
    (hindexed : Indexed planned) :
    (updates.foldl mergeCommand planned).commands =
      KeyedWrites.merge commandSetting planned.commands updates := by
  induction updates generalizing planned with
  | nil => rfl
  | cons command updates ih =>
      rw [List.foldl_cons, ih (indexed_mergeCommand command hindexed),
        mergeCommand_commands command hindexed]
      rfl

/-! ## Overlay settings -/

theorem overlayTarget_injective : Function.Injective overlayTarget := by
  intro left right heq
  cases left <;> cases right <;> first | rfl | exact absurd heq (by decide)

theorem lastValue_overlaySettings (config : OverlayConfig) (fields : List OverlayField)
    (field : OverlayField) :
    KeyedWrites.lastValue (overlayTarget field) (overlaySettings config fields) =
      if field ∈ fields then some (overlayValue config field) else none := by
  induction fields with
  | nil => rfl
  | cons first fields ih =>
      rw [overlaySettings, List.map_cons, KeyedWrites.lastValue_cons]
      change (KeyedWrites.lastValue _ (overlaySettings config fields)).or _ = _
      rw [ih]
      by_cases hfirst : first = field
      · by_cases hmem : field ∈ fields <;> simp [hfirst, hmem]
      · have htarget : overlayTarget first ≠ overlayTarget field :=
          fun heq => hfirst (overlayTarget_injective heq)
        by_cases hmem : field ∈ fields <;> simp [hmem, htarget, Ne.symm hfirst]

theorem fields_planOverlayWrites (baseline : OverlayConfig) (changes : OverlayConfigDelta) :
    ((planOverlayWrites baseline changes).map (·.field)).Perm
      (overlayFields.filter changes.touches) := by
  rw [List.perm_iff_count]
  intro field
  rw [count_planOverlayWrites]
  by_cases htouches : changes.touches field = true
  · rw [if_pos htouches, List.count_filter htouches]
    cases field <;> rfl
  · have hnot : field ∉ overlayFields.filter changes.touches := fun hmem =>
      htouches (List.mem_filter.1 hmem).2
    rw [if_neg htouches, List.count_eq_zero.2 hnot]

/-- A rendered overlay change writes each field it sets, in some order. -/
theorem settings_renderOverlayChanges (baseline : OverlayConfig)
    (changes : OverlayConfigDelta) :
    ((renderOverlayChanges baseline changes).map commandSetting).Perm
      ((overlayFields.filter changes.touches).map fun field =>
        commandSetting (renderOverlayField changes field)) := by
  have hfields := (fields_planOverlayWrites baseline changes).map fun field =>
    commandSetting (renderOverlayField changes field)
  rw [List.map_map] at hfields
  rw [renderOverlayChanges, List.map_map]
  exact hfields

theorem commandTarget_renderOverlayField (changes : OverlayConfigDelta)
    (field : OverlayField) :
    commandTarget (renderOverlayField changes field) = overlayTarget field := by
  cases field <;> rfl

theorem targets_renderOverlayChanges (baseline : OverlayConfig)
    (changes : OverlayConfigDelta) :
    ((renderOverlayChanges baseline changes).map commandTarget).Perm
      ((overlayFields.filter changes.touches).map overlayTarget) := by
  have hsettings := (settings_renderOverlayChanges baseline changes).map Prod.fst
  rw [List.map_map, List.map_map] at hsettings
  have hfields : (Prod.fst ∘ fun field => commandSetting (renderOverlayField changes field)) =
      overlayTarget := funext (commandTarget_renderOverlayField changes)
  rwa [hfields] at hsettings

theorem filter_touches_allOverlay (config : OverlayConfig) :
    overlayFields.filter (allOverlay config).touches = overlayFields := rfl

theorem parseUInt_toDigits_uint32 (value : UInt32) :
    parseUInt (Nat.toDigits 10 value.toNat) = some value.toNat := by
  have hmax : value.toNat ≤ uint64Max := by
    have := value.toNat_lt
    simp only [uint64Max]
    omega
  exact parseUInt_toDigits hmax

/-- Only an unknown type is not rendered as it is. -/
theorem commandValue_renderOverlayField (config : OverlayConfig) (field : OverlayField) :
    commandValue (renderOverlayField (allOverlay config) field) = overlayValue config field ↔
      (field = .type → config.type ≠ .unknown) := by
  cases field with
  | type =>
      obtain ⟨type, size, warning, critical⟩ := config
      cases type with
      | unknown => exact iff_of_false (fun heq => by cases heq) (by simp)
      | ram | disk => exact iff_of_true rfl (by simp)
  | maximumSize | warningThreshold | criticalThreshold =>
      simp [renderOverlayField, allOverlay, makeCmd, commandValue, overlayValue,
        parseUInt_toDigits_uint32]

/-! ## Targets of the other settings -/

/-- Volumes and exclusions. -/
def IsEntryTarget (target : Target) : Prop :=
  target.1 = .volumeProtect ∨ target.1 = .fileAddExclusion ∨ target.1 = .registryAddExclusion

theorem IsEntryTarget.ne_overlayTarget {target : Target} (hentry : IsEntryTarget target)
    (field : OverlayField) : target ≠ overlayTarget field := by
  rintro rfl
  cases field <;> simp [IsEntryTarget, overlayTarget] at hentry

theorem IsEntryTarget.ne_filterTarget {target : Target} (hentry : IsEntryTarget target) :
    target ≠ (.filterEnable, []) := by
  rintro rfl
  simp [IsEntryTarget] at hentry

theorem isEntryTarget_of_mem_sessionEntries {s : SessionSnapshot} {target : Target}
    (hmem : target ∈ (sessionEntries s).map Prod.fst) : IsEntryTarget target := by
  simp only [sessionEntries, List.map_append, List.map_map, List.mem_append, List.mem_map] at hmem
  rcases hmem with (⟨_, _, rfl⟩ | ⟨_, _, rfl⟩) | ⟨_, _, rfl⟩
  · exact Or.inl rfl
  · exact Or.inr (Or.inl rfl)
  · exact Or.inr (Or.inr rfl)

theorem isEntryTarget_of_mem_pendingEntries {c : PendingChanges} {target : Target}
    (hmem : target ∈ (pendingEntries c).map Prod.fst) : IsEntryTarget target := by
  simp only [pendingEntries, List.map_append, List.map_map, List.mem_append, List.mem_map] at hmem
  rcases hmem with (((⟨_, _, rfl⟩ | ⟨_, _, rfl⟩) | ⟨_, _, rfl⟩) | ⟨_, _, rfl⟩) | ⟨_, _, rfl⟩
  · exact Or.inl rfl
  · exact Or.inr (Or.inl rfl)
  · exact Or.inr (Or.inl rfl)
  · exact Or.inr (Or.inr rfl)
  · exact Or.inr (Or.inr rfl)

theorem commandSetting_filterCommand (enabled : Bool) :
    commandSetting (filterCommand enabled) = ((.filterEnable, []), .enabled enabled) := by
  cases enabled <;> rfl

theorem commandSetting_volumeCommand (driveLetter : Text) (isProtected : Bool) :
    commandSetting (volumeCommand driveLetter isProtected) =
      (volumeTarget driveLetter, .enabled isProtected) := by
  cases isProtected <;> rfl

theorem settings_renderPendingChanges (c : PendingChanges) (baseline : OverlayConfig) :
    (renderPendingChanges c baseline).map commandSetting =
      (c.setFilterEnabled.toList.map fun value => ((.filterEnable, []), .enabled value)) ++
        (renderOverlayChanges baseline c.setOverlay).map commandSetting ++
        pendingEntries c := by
  simp only [renderPendingChanges, pendingEntries, List.map_append, List.map_map,
    List.append_assoc]
  congr 1
  · exact List.map_congr_left fun value _ => commandSetting_filterCommand value
  congr 2
  exact List.map_congr_left fun entry _ => commandSetting_volumeCommand entry.1 entry.2

theorem settings_renderSession (s : SessionSnapshot) :
    (renderSession s).map commandSetting =
      ((.filterEnable, []), .enabled s.filter.enabled) ::
        (renderOverlayChanges s.overlay (allOverlay s.overlay)).map commandSetting ++
        sessionEntries s := by
  simp only [renderSession, sessionEntries, List.map_append, List.map_cons, List.map_map,
    List.append_assoc, List.cons_append, commandSetting_filterCommand]
  congr 3
  exact List.map_congr_left fun v _ => commandSetting_volumeCommand v.driveLetter v.isProtected

theorem targets_eq_map_fst (commands : List UwfmgrCommand) :
    commands.map commandTarget = (commands.map commandSetting).map Prod.fst := by
  rw [List.map_map]
  rfl

/-- Overlay commands say nothing about other targets. -/
theorem lastValue_renderOverlayChanges_of_ne {baseline : OverlayConfig}
    {changes : OverlayConfigDelta} {target : Target}
    (htarget : ∀ field, target ≠ overlayTarget field) :
    KeyedWrites.lastValue target ((renderOverlayChanges baseline changes).map
      commandSetting) = none := by
  rw [KeyedWrites.lastValue_eq_none_iff, ← targets_eq_map_fst,
    (targets_renderOverlayChanges baseline changes).mem_iff, List.mem_map]
  rintro ⟨field, -, rfl⟩
  exact htarget field rfl

theorem lastValue_overlaySettings_of_ne {config : OverlayConfig} {fields : List OverlayField}
    {target : Target} (htarget : ∀ field, target ≠ overlayTarget field) :
    KeyedWrites.lastValue target (overlaySettings config fields) = none := by
  rw [KeyedWrites.lastValue_eq_none_iff, overlaySettings, List.map_map, List.mem_map]
  rintro ⟨field, -, rfl⟩
  exact htarget field rfl

theorem nodup_sessionEntries_iff (s : SessionSnapshot) :
    ((sessionEntries s).map Prod.fst).Nodup ↔ DistinctTargets s := by
  have hvolumes : ∀ target ∈ (s.volumes.filter fun v => !v.driveLetter.isEmpty).map fun v =>
      volumeTarget v.driveLetter, target.1 = .volumeProtect := by
    intro target hmem
    obtain ⟨v, -, rfl⟩ := List.mem_map.1 hmem
    rfl
  have hfiles : ∀ target ∈ (s.fileExclusions.flatMap (·.2)).map fileTarget,
      target.1 = .fileAddExclusion := by
    intro target hmem
    obtain ⟨p, -, rfl⟩ := List.mem_map.1 hmem
    rfl
  have hregistry : ∀ target ∈ s.registryExclusions.map registryTarget,
      target.1 = .registryAddExclusion := by
    intro target hmem
    obtain ⟨k, -, rfl⟩ := List.mem_map.1 hmem
    rfl
  have htargets : (sessionEntries s).map Prod.fst =
      ((s.volumes.filter fun v => !v.driveLetter.isEmpty).map fun v =>
        volumeTarget v.driveLetter) ++
        (s.fileExclusions.flatMap (·.2)).map fileTarget ++
        s.registryExclusions.map registryTarget := by
    simp only [sessionEntries, List.map_append, List.map_map]
    rfl
  rw [htargets, List.nodup_append, List.nodup_append]
  constructor
  · rintro ⟨⟨hv, hf, -⟩, hr, -⟩
    exact ⟨hv, hf, hr⟩
  · rintro ⟨hv, hf, hr⟩
    refine ⟨⟨hv, hf, ?_⟩, hr, ?_⟩
    · intro left hleft right hright heq
      have hkind := hvolumes left hleft
      rw [heq, hfiles right hright] at hkind
      exact absurd hkind (by decide)
    · intro left hleft right hright heq
      have hkind := hregistry right hright
      rcases List.mem_append.1 hleft with hleft | hleft
      · rw [← heq, hvolumes left hleft] at hkind
        exact absurd hkind (by decide)
      · rw [← heq, hfiles left hleft] at hkind
        exact absurd hkind (by decide)

/-- The filter and the overlay take one command for each target, whatever order
the overlay commands are in. -/
theorem nodup_targets_iff {overlay : List Target} {rest : List Target}
    (hoverlay : overlay.Perm (overlayFields.map overlayTarget))
    (hrest : ∀ target ∈ rest, IsEntryTarget target) :
    (((.filterEnable, []) : Target) :: overlay ++ rest).Nodup ↔ rest.Nodup := by
  have hfixed : (((.filterEnable, []) : Target) :: overlay).Nodup := by
    rw [((hoverlay.cons _).nodup_iff)]
    decide
  rw [List.nodup_append]
  refine ⟨fun h => h.2.1, fun h => ⟨hfixed, h, ?_⟩⟩
  rintro left hleft right hright rfl
  rcases List.mem_cons.1 hleft with rfl | hleft
  · exact (hrest _ hright).ne_filterTarget rfl
  · obtain ⟨field, -, rfl⟩ := List.mem_map.1 (hoverlay.mem_iff.1 hleft)
    exact (hrest _ hright).ne_overlayTarget field rfl

theorem targets_renderOverlayChanges_all (baseline config : OverlayConfig) :
    ((renderOverlayChanges baseline (allOverlay config)).map commandTarget).Perm
      (overlayFields.map overlayTarget) :=
  targets_renderOverlayChanges baseline (allOverlay config)

theorem targets_renderSession (s : SessionSnapshot) :
    (renderSession s).map commandTarget =
      (.filterEnable, []) ::
        (renderOverlayChanges s.overlay (allOverlay s.overlay)).map commandTarget ++
        (sessionEntries s).map Prod.fst := by
  rw [targets_eq_map_fst, settings_renderSession, List.map_append, List.map_cons,
    targets_eq_map_fst]

theorem nodup_targets_renderSession_iff (s : SessionSnapshot) :
    ((renderSession s).map commandTarget).Nodup ↔ DistinctTargets s := by
  rw [targets_renderSession, nodup_targets_iff (targets_renderOverlayChanges_all _ _)
    fun _ => isEntryTarget_of_mem_sessionEntries, nodup_sessionEntries_iff]

/-! ## The merged commands -/

/-- The commands after the merge, before the overlay commands are replaced. -/
def mergedCommands (baseline : SessionSnapshot) (changes : PendingChanges) :
    List UwfmgrCommand :=
  KeyedWrites.merge commandSetting (renderSession baseline)
    (renderPendingChanges changes baseline.overlay)

/-- The merge keeps the overlay commands where they are. -/
theorem exists_mergedCommands_eq (baseline : SessionSnapshot) (changes : PendingChanges) :
    ∃ first overlay rest, mergedCommands baseline changes = first :: overlay ++ rest ∧
      overlay.length = 4 ∧ commandTarget first = (.filterEnable, []) ∧
      (overlay.map commandTarget).Perm (overlayFields.map overlayTarget) := by
  obtain ⟨added, hadded⟩ := KeyedWrites.keys_merge commandSetting (renderSession baseline)
    (renderPendingChanges changes baseline.overlay)
  change (mergedCommands baseline changes).map commandTarget =
    (renderSession baseline).map commandTarget ++ added at hadded
  rw [targets_renderSession, List.append_assoc, List.cons_append] at hadded
  obtain ⟨first, others, hmerged, hfirst, hothers⟩ := List.map_eq_cons_iff.1 hadded
  obtain ⟨overlay, rest, rfl, hoverlay, -⟩ := List.map_eq_append_iff.1 hothers
  have hperm := targets_renderOverlayChanges_all baseline.overlay baseline.overlay
  rw [← hoverlay] at hperm
  refine ⟨first, overlay, rest, hmerged, ?_, hfirst, hperm⟩
  simpa [overlayFields] using hperm.length_eq

theorem length_renderOverlayChanges_all (baseline config : OverlayConfig) :
    (renderOverlayChanges baseline (allOverlay config)).length = 4 := by
  simpa [overlayFields] using (targets_renderOverlayChanges_all baseline config).length_eq

theorem renderPlannedSession_eq {baseline : SessionSnapshot} {changes : PendingChanges}
    {first : UwfmgrCommand} {overlay rest : List UwfmgrCommand}
    (hmerged : mergedCommands baseline changes = first :: overlay ++ rest)
    (hlength : overlay.length = 4) :
    renderPlannedSession baseline changes =
      first :: renderOverlayChanges baseline.overlay
        (allOverlay (changes.setOverlay.applyTo baseline.overlay)) ++ rest := by
  have hfold := foldl_mergeCommand (renderPendingChanges changes baseline.overlay)
    (indexed_indexTargets (renderSession baseline))
  simp only [renderPlannedSession, hfold, length_renderOverlayChanges_all]
  change (mergedCommands baseline changes).take 1 ++ _ ++
    (mergedCommands baseline changes).drop (1 + 4) = _
  rw [hmerged, ← hlength, Nat.add_comm, List.cons_append, List.drop_succ_cons, List.drop_left]
  rfl

/-- The planned commands have the targets of the merged ones. -/
theorem nodup_targets_renderPlannedSession_iff (baseline : SessionSnapshot)
    (changes : PendingChanges) :
    ((renderPlannedSession baseline changes).map commandTarget).Nodup ↔
      DistinctTargets baseline := by
  obtain ⟨first, overlay, rest, hmerged, hlength, hfirst, hoverlay⟩ :=
    exists_mergedCommands_eq baseline changes
  have hplanned := targets_renderOverlayChanges_all baseline.overlay
    (changes.setOverlay.applyTo baseline.overlay)
  have hperm : ((renderPlannedSession baseline changes).map commandTarget).Perm
      ((mergedCommands baseline changes).map commandTarget) := by
    rw [renderPlannedSession_eq hmerged hlength, hmerged, List.map_append, List.map_append,
      List.map_cons, List.map_cons]
    exact ((hplanned.trans hoverlay.symm).cons _).append_right _
  rw [hperm.nodup_iff, ← nodup_targets_renderSession_iff]
  exact KeyedWrites.nodup_keys_merge_iff commandSetting _ _

/-! ## Replaying the planned session -/

/-- An overlay target has the value of its command in the new overlay plan. -/
theorem lastValue_planned_overlay {baseline : SessionSnapshot} {changes : PendingChanges}
    (hdistinct : DistinctTargets baseline) (field : OverlayField) :
    KeyedWrites.lastValue (overlayTarget field)
        ((renderPlannedSession baseline changes).map commandSetting) =
      some (commandValue (renderOverlayField
        (allOverlay (changes.setOverlay.applyTo baseline.overlay)) field)) := by
  obtain ⟨first, overlay, rest, hmerged, hlength, -⟩ := exists_mergedCommands_eq baseline changes
  have hnodup := (nodup_targets_renderPlannedSession_iff baseline changes).2 hdistinct
  rw [targets_eq_map_fst] at hnodup
  rw [KeyedWrites.lastValue_eq_some_iff hnodup, renderPlannedSession_eq hmerged hlength,
    List.map_append, List.map_cons, List.cons_append]
  refine List.mem_cons_of_mem _ (List.mem_append_left _ ?_)
  rw [(settings_renderOverlayChanges _ _).mem_iff, filter_touches_allOverlay, List.mem_map]
  refine ⟨field, by cases field <;> decide, ?_⟩
  rw [commandSetting, commandTarget_renderOverlayField]

/-- Another target has the value the merge left it with. -/
theorem lastValue_planned_other {baseline : SessionSnapshot} {changes : PendingChanges}
    {target : Target} (htarget : ∀ field, target ≠ overlayTarget field) :
    KeyedWrites.lastValue target
        ((renderPlannedSession baseline changes).map commandSetting) =
      KeyedWrites.lastValue target ((mergedCommands baseline changes).map commandSetting) := by
  obtain ⟨first, overlay, rest, hmerged, hlength, -, hoverlay⟩ :=
    exists_mergedCommands_eq baseline changes
  have hnone : KeyedWrites.lastValue target (overlay.map commandSetting) = none := by
    rw [KeyedWrites.lastValue_eq_none_iff, ← targets_eq_map_fst, hoverlay.mem_iff,
      List.mem_map]
    rintro ⟨field, -, rfl⟩
    exact htarget field rfl
  rw [renderPlannedSession_eq hmerged hlength, hmerged]
  simp only [List.map_append, List.map_cons, KeyedWrites.lastValue_append,
    KeyedWrites.lastValue_cons, lastValue_renderOverlayChanges_of_ne htarget, hnone]

theorem overlayValue_applyTo {changes : OverlayConfigDelta} {field : OverlayField}
    (baseline : OverlayConfig) (htouches : changes.touches field = false) :
    overlayValue (changes.applyTo baseline) field = overlayValue baseline field := by
  obtain ⟨type, size, warning, critical⟩ := changes
  cases field with
  | type => cases type <;> first | rfl | exact Bool.noConfusion htouches
  | maximumSize => cases size <;> first | rfl | exact Bool.noConfusion htouches
  | warningThreshold => cases warning <;> first | rfl | exact Bool.noConfusion htouches
  | criticalThreshold => cases critical <;> first | rfl | exact Bool.noConfusion htouches

theorem plannedValue_overlay (baseline : SessionSnapshot) (changes : PendingChanges)
    (field : OverlayField) :
    plannedValue baseline changes (overlayTarget field) =
      some (overlayValue (changes.setOverlay.applyTo baseline.overlay) field) := by
  have hpending : KeyedWrites.lastValue (overlayTarget field) (pendingEntries changes) =
      none := by
    rw [KeyedWrites.lastValue_eq_none_iff]
    exact fun hmem => (isEntryTarget_of_mem_pendingEntries hmem).ne_overlayTarget field rfl
  have hsession : KeyedWrites.lastValue (overlayTarget field) (sessionEntries baseline) =
      none := by
    rw [KeyedWrites.lastValue_eq_none_iff]
    exact fun hmem => (isEntryTarget_of_mem_sessionEntries hmem).ne_overlayTarget field rfl
  have hall : field ∈ overlayFields := by cases field <;> decide
  have hfilter : ∀ value : List Bool, KeyedWrites.lastValue (overlayTarget field)
      (value.map fun value => (((.filterEnable, []), .enabled value) : Target × SettingValue)) =
        none := by
    intro value
    rw [KeyedWrites.lastValue_eq_none_iff, List.map_map, List.mem_map]
    rintro ⟨_, -, heq⟩
    cases field <;> exact absurd heq (by simp [overlayTarget])
  rw [plannedValue, pendingSettings, sessionSettings, KeyedWrites.lastValue_append,
    KeyedWrites.lastValue_append, hpending, hfilter, lastValue_overlaySettings,
    KeyedWrites.lastValue_append, KeyedWrites.lastValue_cons, hsession,
    lastValue_overlaySettings, if_pos hall, Option.none_or, Option.none_or, Option.or_none,
    Option.some_or]
  cases htouches : changes.setOverlay.touches field with
  | true => rw [if_pos (List.mem_filter.2 ⟨hall, htouches⟩), Option.some_or]
  | false =>
      rw [if_neg fun hmem => by simp [htouches] at hmem, Option.none_or,
        overlayValue_applyTo _ htouches]

theorem plannedValue_other {baseline : SessionSnapshot} {changes : PendingChanges}
    {target : Target} (hdistinct : DistinctTargets baseline)
    (htarget : ∀ field, target ≠ overlayTarget field) :
    KeyedWrites.lastValue target ((mergedCommands baseline changes).map commandSetting) =
      plannedValue baseline changes target := by
  have hnodup := (nodup_targets_renderSession_iff baseline).2 hdistinct
  have hmerge : KeyedWrites.lastValue target
      ((mergedCommands baseline changes).map commandSetting) =
      (KeyedWrites.lastValue target
        ((renderPendingChanges changes baseline.overlay).map commandSetting)).or
        (KeyedWrites.lastValue target ((renderSession baseline).map commandSetting)) :=
    KeyedWrites.lastValue_merge commandSetting target hnodup
  rw [hmerge, settings_renderPendingChanges, settings_renderSession, plannedValue,
    pendingSettings, sessionSettings]
  simp only [KeyedWrites.lastValue_append, KeyedWrites.lastValue_cons,
    lastValue_renderOverlayChanges_of_ne htarget, lastValue_overlaySettings_of_ne htarget]

/-- The exported commands reproduce the planned session exactly when the
baseline names no target twice and the overlay type is known. -/
theorem renderPlannedSession_reproduces_iff (baseline : SessionSnapshot)
    (changes : PendingChanges) :
    ReproducesPlan baseline changes (renderPlannedSession baseline changes) ↔
      DistinctTargets baseline ∧
        changes.setOverlay.type.getD baseline.overlay.type ≠ .unknown := by
  constructor
  · intro hreproduces
    have hdistinct := (nodup_targets_renderPlannedSession_iff baseline changes).1
      hreproduces.once
    have htype := hreproduces.replayed (fun _ => none) (overlayTarget .type)
    rw [KeyedWrites.replay_apply, lastValue_planned_overlay hdistinct, plannedValue_overlay,
      Option.some_or, Option.some_or, Option.some.injEq,
      commandValue_renderOverlayField] at htype
    exact ⟨hdistinct, htype rfl⟩
  · rintro ⟨hdistinct, htype⟩
    have honce := (nodup_targets_renderPlannedSession_iff baseline changes).2 hdistinct
    refine ⟨?_, honce, ?_⟩
    · intro state target
      rw [KeyedWrites.replay_apply]
      by_cases hoverlay : ∃ field, target = overlayTarget field
      · obtain ⟨field, rfl⟩ := hoverlay
        rw [lastValue_planned_overlay hdistinct, plannedValue_overlay,
          (commandValue_renderOverlayField _ field).2 fun _ => htype]
      · rw [lastValue_planned_other (not_exists.1 hoverlay),
          plannedValue_other hdistinct (not_exists.1 hoverlay)]
    · exact (List.pairwise_map.1 honce).imp fun hne _ _ => hne

theorem renderPlannedSession_reproduces_removal :
    ReproducesPlan
      { overlay := ⟨.ram, 1024, 512, 768⟩,
        fileExclusions := [("Volume".toList, ["C:\\Data".toList, "C:\\Logs".toList])] }
      { removeFileExclusions := [("C:".toList, ["c:/data/".toList])] }
      (renderPlannedSession
        { overlay := ⟨.ram, 1024, 512, 768⟩,
          fileExclusions := [("Volume".toList, ["C:\\Data".toList, "C:\\Logs".toList])] }
        { removeFileExclusions := [("C:".toList, ["c:/data/".toList])] }) :=
  (renderPlannedSession_reproduces_iff _ _).2 ⟨⟨by decide, by decide, by decide⟩, by decide⟩

/-- An exclusion that the baseline holds with and without a separator at its end is
removed once and then added again. -/
theorem renderPlannedSession_duplicate_added_again :
    let baseline : SessionSnapshot :=
      { overlay := ⟨.ram, 1024, 512, 768⟩,
        fileExclusions := [("Volume".toList, ["C:\\Data".toList, "C:\\Data\\".toList])] }
    let changes : PendingChanges :=
      { removeFileExclusions := [("C:".toList, ["C:\\Data".toList])] }
    (renderPlannedSession baseline changes).drop 5 =
        [makeCmd .fileRemoveExclusion ["C:\\Data".toList],
          makeCmd .fileAddExclusion ["C:\\Data\\".toList]] ∧
      ¬ReproducesPlan baseline changes (renderPlannedSession baseline changes) := by
  intro baseline changes
  have hrest : (renderPlannedSession baseline changes).drop 5 =
      [makeCmd .fileRemoveExclusion ["C:\\Data".toList],
        makeCmd .fileAddExclusion ["C:\\Data\\".toList]] := by
    decide +kernel
  refine ⟨hrest, fun hreproduces => ?_⟩
  have hpairwise := hreproduces.not_added_again.sublist (List.drop_sublist 5 _)
  rw [hrest, List.pairwise_pair] at hpairwise
  exact hpairwise (Or.inl rfl) (Or.inl rfl) (by decide)

end UwfManager.Commands
