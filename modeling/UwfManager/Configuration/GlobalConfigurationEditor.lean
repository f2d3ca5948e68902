import UwfManager.Core.OverlayWritePlan

/-!
# The editor of the global configuration

The user edits the filter and the four overlay fields one at a time; an import
sets several of them and reconciles them when it is finished.  The editor cuts
every changed value to its own limits and leaves a value alone that the
baseline already has outside them.  This file models the editor and proves
that what it hands over can always be applied.
-/

namespace UwfManager

structure GlobalConfigurationDraft where
  baselineFilter : FilterState := {}
  baselineOverlay : OverlayConfig := {}
  filterEnabled : Bool := false
  overlay : OverlayConfig := {}
  deriving DecidableEq

namespace GlobalConfigurationDraft

def pendingFilterEnabled (draft : GlobalConfigurationDraft) : Option Bool :=
  if draft.filterEnabled = draft.baselineFilter.enabled then none else some draft.filterEnabled

def pendingOverlay (draft : GlobalConfigurationDraft) : OverlayConfigDelta where
  type := if draft.overlay.type ≠ draft.baselineOverlay.type then some draft.overlay.type else none
  maximumSizeMb :=
    if draft.overlay.maximumSizeMb ≠ draft.baselineOverlay.maximumSizeMb then
      some draft.overlay.maximumSizeMb
    else none
  warningThresholdMb :=
    if draft.overlay.warningThresholdMb ≠ draft.baselineOverlay.warningThresholdMb then
      some draft.overlay.warningThresholdMb
    else none
  criticalThresholdMb :=
    if draft.overlay.criticalThresholdMb ≠ draft.baselineOverlay.criticalThresholdMb then
      some draft.overlay.criticalThresholdMb
    else none

/-- Applying the pending fields to the baseline gives the edited values. -/
theorem applyTo_pendingOverlay (draft : GlobalConfigurationDraft) :
    draft.pendingOverlay.applyTo draft.baselineOverlay = draft.overlay := by
  have hfield : ∀ {α : Type} [DecidableEq α] (edited base : α),
      (if edited ≠ base then some edited else none).getD base = edited := by
    intro α _ edited base
    by_cases hsame : edited = base
    · simp [hsame]
    · simp [hsame]
  simp only [OverlayConfigDelta.applyTo, pendingOverlay, hfield]

end GlobalConfigurationDraft

/-! ## Bounds

The limits are C++ `int`s that are never negative, so they are the numbers
that an `int` and a `uint32_t` have in common. -/

def editorMaximum : UInt32 := 2147483647

structure EditorRange where
  minimum : UInt32 := 0
  maximum : UInt32 := editorMaximum
  deriving DecidableEq

/-- `overlaySizeBounds` for the limit of the editor -/
def overlaySizeBounds (type : OverlayType) (totalRamMb : UInt32) : EditorRange where
  minimum := if type = .ram then 0 else diskOverlayMinSizeMb
  maximum := if type = .ram ∧ totalRamMb > 0 then min totalRamMb editorMaximum else editorMaximum

def strictThresholdUpper (parentValue : UInt32) : UInt32 :=
  if parentValue ≤ 1 then 0 else parentValue - 1

def editorValue (value : UInt32) : UInt32 := min value editorMaximum

/-- `std::clamp` to the range -/
def bounded (value : UInt32) (range : EditorRange) : UInt32 :=
  if value < range.minimum then range.minimum
  else if range.maximum < value then range.maximum
  else value

def warningThresholdMaximum (criticalThreshold : UInt32) : UInt32 :=
  if criticalThreshold = 0 ∨ criticalThreshold > editorMaximum then editorMaximum
  else strictThresholdUpper criticalThreshold

/-- The range to which a changed size is cut. -/
def maximumSizeRange (type : OverlayType) (totalRamMb : UInt32) : EditorRange :=
  let bounds := overlaySizeBounds type totalRamMb
  ⟨bounds.minimum, max bounds.minimum bounds.maximum⟩

theorem minimum_le_bounded {value : UInt32} {range : EditorRange}
    (hrange : range.minimum ≤ range.maximum) : range.minimum ≤ bounded value range := by
  rw [bounded]
  split_ifs with hlow hhigh
  · exact UInt32.le_refl _
  · exact hrange
  · exact UInt32.not_lt.1 hlow

theorem bounded_le_maximum {value : UInt32} {range : EditorRange}
    (hrange : range.minimum ≤ range.maximum) : bounded value range ≤ range.maximum := by
  rw [bounded]
  split_ifs with hlow hhigh
  · exact hrange
  · exact UInt32.le_refl _
  · exact UInt32.not_lt.1 hhigh

theorem bounded_eq_self {value : UInt32} {range : EditorRange} (hlow : range.minimum ≤ value)
    (hhigh : value ≤ range.maximum) : bounded value range = value := by
  rw [bounded, if_neg (UInt32.not_lt.2 hlow), if_neg (UInt32.not_lt.2 hhigh)]

theorem maximumSizeRange_le (type : OverlayType) (totalRamMb : UInt32) :
    (maximumSizeRange type totalRamMb).minimum ≤ (maximumSizeRange type totalRamMb).maximum := by
  rw [maximumSizeRange]
  show _ ≤ (if _ then _ else _ : UInt32)
  split_ifs with hle
  · exact hle
  · exact UInt32.le_refl _

/-- A warning value within its limit leaves the thresholds valid. -/
theorem thresholdsValid_of_le {config : OverlayConfig}
    (hwarning : config.warningThresholdMb ≤ warningThresholdMaximum config.criticalThresholdMb) :
    config.ThresholdsValid := by
  rw [OverlayConfig.ThresholdsValid]
  by_cases hzero : config.criticalThresholdMb = 0
  · exact Or.inr (Or.inl hzero)
  by_cases hlarge : config.criticalThresholdMb > editorMaximum
  · rw [warningThresholdMaximum, if_pos (Or.inr hlarge)] at hwarning
    exact Or.inr (Or.inr (UInt32.lt_of_le_of_lt hwarning hlarge))
  · rw [warningThresholdMaximum, if_neg (by simp [hzero, hlarge]), strictThresholdUpper] at hwarning
    split_ifs at hwarning with hone
    · exact Or.inl (UInt32.le_antisymm hwarning UInt32.zero_le)
    · refine Or.inr (Or.inr ?_)
      rw [UInt32.not_le] at hone
      apply UInt32.lt_of_le_of_lt hwarning
      rw [UInt32.lt_iff_toNat_lt] at hone ⊢
      rw [UInt32.toNat_sub_of_le _ _ (UInt32.le_of_lt (UInt32.lt_iff_toNat_lt.2 hone))]
      have hunit : (1 : UInt32).toNat = 1 := rfl
      omega

/-! ## The editor -/

structure GlobalConfigurationEditor where
  draft : GlobalConfigurationDraft := {}
  maximumRange : EditorRange := {}
  warningRange : EditorRange := {}
  criticalRange : EditorRange := {}
  totalRamMb : UInt32 := 0
  available : Bool := true
  rangesNormalized : Bool := false
  deriving DecidableEq

namespace GlobalConfigurationEditor

def setAvailable (editor : GlobalConfigurationEditor) (available : Bool) :
    GlobalConfigurationEditor :=
  { editor with available := available }

/-- The ranges of the input fields; they contain the values of the draft. -/
def updateRanges (editor : GlobalConfigurationEditor) : GlobalConfigurationEditor :=
  let bounds := overlaySizeBounds editor.draft.overlay.type editor.totalRamMb
  let maximumSize := editorValue editor.draft.overlay.maximumSizeMb
  { editor with
    rangesNormalized := true
    maximumRange := ⟨min bounds.minimum maximumSize, max bounds.maximum maximumSize⟩
    criticalRange := ⟨0, editorMaximum⟩
    warningRange := ⟨0, warningThresholdMaximum editor.draft.overlay.criticalThresholdMb⟩ }

def reset (editor : GlobalConfigurationEditor) (next : SessionSnapshot) :
    GlobalConfigurationEditor :=
  (updateRanges { editor with draft := ⟨next.filter, next.overlay, next.filter.enabled,
    next.overlay⟩ }).setAvailable true

/-- The size is cut when the type or the size has changed. -/
def normalizeSize (totalRamMb : UInt32) (baseline overlay : OverlayConfig) : OverlayConfig :=
  if overlay.type ≠ baseline.type ∨ overlay.maximumSizeMb ≠ baseline.maximumSizeMb then
    { overlay with
      maximumSizeMb := bounded overlay.maximumSizeMb (maximumSizeRange overlay.type totalRamMb) }
  else overlay

/-- The warning value is cut when one of the thresholds has changed. -/
def normalizeWarning (baseline overlay : OverlayConfig) : OverlayConfig :=
  if overlay.warningThresholdMb ≠ baseline.warningThresholdMb ∨
      overlay.criticalThresholdMb ≠ baseline.criticalThresholdMb then
    { overlay with
      warningThresholdMb := bounded overlay.warningThresholdMb
        ⟨0, warningThresholdMaximum overlay.criticalThresholdMb⟩ }
  else overlay

def setOverlay (editor : GlobalConfigurationEditor) (overlay : OverlayConfig) :
    GlobalConfigurationEditor :=
  { editor with draft := { editor.draft with overlay := overlay } }

def normalize (editor : GlobalConfigurationEditor) : GlobalConfigurationEditor :=
  (editor.setOverlay (normalizeWarning editor.draft.baselineOverlay
    (normalizeSize editor.totalRamMb editor.draft.baselineOverlay editor.draft.overlay))).updateRanges

def editFilterEnabled (editor : GlobalConfigurationEditor) (value : Bool) :
    GlobalConfigurationEditor :=
  { editor with draft := { editor.draft with filterEnabled := value } }

def editOverlayType (editor : GlobalConfigurationEditor) (value : OverlayType) :
    GlobalConfigurationEditor :=
  (editor.setOverlay { editor.draft.overlay with type := value }).normalize

/-- `static_cast<uint32_t>(std::max(0, value))` -/
def editedNumber (value : Int32) : UInt32 := UInt32.ofNat value.toNatClampNeg

def editMaximumSize (editor : GlobalConfigurationEditor) (value : Int32) :
    GlobalConfigurationEditor :=
  (editor.setOverlay { editor.draft.overlay with maximumSizeMb := editedNumber value }).normalize

def editWarningThreshold (editor : GlobalConfigurationEditor) (value : Int32) :
    GlobalConfigurationEditor :=
  (editor.setOverlay
    { editor.draft.overlay with warningThresholdMb := editedNumber value }).normalize

def editCriticalThreshold (editor : GlobalConfigurationEditor) (value : Int32) :
    GlobalConfigurationEditor :=
  (editor.setOverlay
    { editor.draft.overlay with criticalThresholdMb := editedNumber value }).normalize

def pendingFilterEnabled (editor : GlobalConfigurationEditor) : Option Bool :=
  if editor.available then editor.draft.pendingFilterEnabled else none

def pendingOverlay (editor : GlobalConfigurationEditor) : OverlayConfigDelta :=
  if editor.available then editor.draft.pendingOverlay else {}

/-! ### Imports -/

/-- An import returns whether it was accepted. -/
def importFilterEnabled (editor : GlobalConfigurationEditor) (value : Bool) :
    Bool × GlobalConfigurationEditor :=
  if !editor.available ∨ editor.draft.filterEnabled = value then (false, editor)
  else (true, editor.editFilterEnabled value)

def importOverlayType (editor : GlobalConfigurationEditor) (value : OverlayType) :
    Bool × GlobalConfigurationEditor :=
  if !editor.available ∨ editor.draft.overlay.type = value then (false, editor)
  else if value = .ram ∨ value = .disk then
    (true, editor.setOverlay { editor.draft.overlay with type := value })
  else (true, editor)

def importOverlayMaxMb (editor : GlobalConfigurationEditor) (value : UInt32) :
    Bool × GlobalConfigurationEditor :=
  let imported := editorValue value
  let target := editor.draft.overlay.maximumSizeMb
  if !editor.available ∨ target = value ∨ target = imported then (false, editor)
  else
    (true, { editor.setOverlay { editor.draft.overlay with maximumSizeMb := imported } with
      maximumRange := ⟨0, editorMaximum⟩, rangesNormalized := false })

def importOverlayWarnMb (editor : GlobalConfigurationEditor) (value : UInt32) :
    Bool × GlobalConfigurationEditor :=
  let imported := editorValue value
  let target := editor.draft.overlay.warningThresholdMb
  if !editor.available ∨ target = value ∨ target = imported then (false, editor)
  else
    (true, { editor.setOverlay { editor.draft.overlay with warningThresholdMb := imported } with
      warningRange := ⟨0, editorMaximum⟩, rangesNormalized := false })

def importOverlayCritMb (editor : GlobalConfigurationEditor) (value : UInt32) :
    Bool × GlobalConfigurationEditor :=
  let imported := editorValue value
  let target := editor.draft.overlay.criticalThresholdMb
  if !editor.available ∨ target = value ∨ target = imported then (false, editor)
  else
    (true, { editor.setOverlay { editor.draft.overlay with criticalThresholdMb := imported } with
      criticalRange := ⟨0, editorMaximum⟩, rangesNormalized := false })

def finishImport (editor : GlobalConfigurationEditor) : GlobalConfigurationEditor :=
  if !editor.available then editor else editor.normalize

inductive Import where
  | filterEnabled (value : Bool)
  | overlayType (value : OverlayType)
  | overlayMaxMb (value : UInt32)
  | overlayWarnMb (value : UInt32)
  | overlayCritMb (value : UInt32)

def importField (editor : GlobalConfigurationEditor) : Import → Bool × GlobalConfigurationEditor
  | .filterEnabled value => editor.importFilterEnabled value
  | .overlayType value => editor.importOverlayType value
  | .overlayMaxMb value => editor.importOverlayMaxMb value
  | .overlayWarnMb value => editor.importOverlayWarnMb value
  | .overlayCritMb value => editor.importOverlayCritMb value

/-- Imports one field after the other and tells whether one of them was accepted. -/
def importFields : GlobalConfigurationEditor → List Import → Bool × GlobalConfigurationEditor
  | editor, [] => (false, editor)
  | editor, field :: rest =>
      let first := editor.importField field
      let others := importFields first.2 rest
      (first.1 || others.1, others.2)

/-! ## Runs -/

inductive Action where
  | filterEnabled (value : Bool)
  | overlayType (value : OverlayType)
  | maximumSize (value : Int32)
  | warningThreshold (value : Int32)
  | criticalThreshold (value : Int32)
  | importBatch (fields : List Import)

def step (editor : GlobalConfigurationEditor) : Action → GlobalConfigurationEditor
  | .filterEnabled value => editor.editFilterEnabled value
  | .overlayType value => editor.editOverlayType value
  | .maximumSize value => editor.editMaximumSize value
  | .warningThreshold value => editor.editWarningThreshold value
  | .criticalThreshold value => editor.editCriticalThreshold value
  | .importBatch fields => (editor.importFields fields).2.finishImport

def Import.touchesStorage : Import → Bool
  | .overlayType _ | .overlayMaxMb _ => true
  | .filterEnabled _ | .overlayWarnMb _ | .overlayCritMb _ => false

def Import.touchesThresholds : Import → Bool
  | .overlayWarnMb _ | .overlayCritMb _ => true
  | .filterEnabled _ | .overlayType _ | .overlayMaxMb _ => false

/-- The action edits the type or the size. -/
def Action.touchesStorage : Action → Bool
  | .overlayType _ | .maximumSize _ => true
  | .importBatch fields => fields.any Import.touchesStorage
  | .filterEnabled _ | .warningThreshold _ | .criticalThreshold _ => false

def Action.touchesThresholds : Action → Bool
  | .warningThreshold _ | .criticalThreshold _ => true
  | .importBatch fields => fields.any Import.touchesThresholds
  | .filterEnabled _ | .overlayType _ | .maximumSize _ => false

/-! ## Values within the limits of the editor -/

def SizeSettled (totalRamMb : UInt32) (baseline overlay : OverlayConfig) : Prop :=
  overlay.type ≠ baseline.type ∨ overlay.maximumSizeMb ≠ baseline.maximumSizeMb →
    (maximumSizeRange overlay.type totalRamMb).minimum ≤ overlay.maximumSizeMb ∧
      overlay.maximumSizeMb ≤ (maximumSizeRange overlay.type totalRamMb).maximum

def WarningSettled (baseline overlay : OverlayConfig) : Prop :=
  overlay.warningThresholdMb ≠ baseline.warningThresholdMb ∨
      overlay.criticalThresholdMb ≠ baseline.criticalThresholdMb →
    overlay.warningThresholdMb ≤ warningThresholdMaximum overlay.criticalThresholdMb

def CriticalBounded (editor : GlobalConfigurationEditor) : Prop :=
  editor.draft.overlay.criticalThresholdMb ≠ editor.draft.baselineOverlay.criticalThresholdMb →
    editor.draft.overlay.criticalThresholdMb ≤ editorMaximum

theorem sizeSettled_normalizeSize (totalRamMb : UInt32) (baseline overlay : OverlayConfig) :
    SizeSettled totalRamMb baseline (normalizeSize totalRamMb baseline overlay) := by
  rw [normalizeSize]
  split_ifs with hchanged
  · intro _
    exact ⟨minimum_le_bounded (maximumSizeRange_le _ _), bounded_le_maximum (maximumSizeRange_le _ _)⟩
  · exact fun h => absurd h hchanged

/-- A size that was cut stays as it is. -/
theorem normalizeSize_of_settled {totalRamMb : UInt32} {baseline overlay : OverlayConfig}
    (hsettled : SizeSettled totalRamMb baseline overlay) :
    normalizeSize totalRamMb baseline overlay = overlay := by
  rw [normalizeSize]
  split_ifs with hchanged
  · rw [bounded_eq_self (hsettled hchanged).1 (hsettled hchanged).2]
  · rfl

theorem warningSettled_normalizeWarning (baseline overlay : OverlayConfig) :
    WarningSettled baseline (normalizeWarning baseline overlay) := by
  rw [normalizeWarning]
  split_ifs with hchanged
  · exact fun _ => bounded_le_maximum UInt32.zero_le
  · exact fun h => absurd h hchanged

theorem normalizeWarning_of_settled {baseline overlay : OverlayConfig}
    (hsettled : WarningSettled baseline overlay) : normalizeWarning baseline overlay = overlay := by
  rw [normalizeWarning]
  split_ifs with hchanged
  · rw [bounded_eq_self UInt32.zero_le (hsettled hchanged)]
  · rfl

theorem normalizeSize_thresholds (totalRamMb : UInt32) (baseline overlay : OverlayConfig) :
    (normalizeSize totalRamMb baseline overlay).warningThresholdMb = overlay.warningThresholdMb ∧
      (normalizeSize totalRamMb baseline overlay).criticalThresholdMb =
        overlay.criticalThresholdMb := by
  rw [normalizeSize]
  split_ifs <;> exact ⟨rfl, rfl⟩

theorem normalizeWarning_others (baseline overlay : OverlayConfig) :
    (normalizeWarning baseline overlay).type = overlay.type ∧
      (normalizeWarning baseline overlay).maximumSizeMb = overlay.maximumSizeMb ∧
      (normalizeWarning baseline overlay).criticalThresholdMb = overlay.criticalThresholdMb := by
  rw [normalizeWarning]
  split_ifs <;> exact ⟨rfl, rfl, rfl⟩

theorem sizeSettled_congr {totalRamMb : UInt32} {baseline first second : OverlayConfig}
    (htype : second.type = first.type) (hsize : second.maximumSizeMb = first.maximumSizeMb)
    (hsettled : SizeSettled totalRamMb baseline first) : SizeSettled totalRamMb baseline second := by
  rw [SizeSettled, htype, hsize]
  exact hsettled

theorem warningSettled_congr {baseline first second : OverlayConfig}
    (hwarning : second.warningThresholdMb = first.warningThresholdMb)
    (hcritical : second.criticalThresholdMb = first.criticalThresholdMb)
    (hsettled : WarningSettled baseline first) : WarningSettled baseline second := by
  rw [WarningSettled, hwarning, hcritical]
  exact hsettled

/-- The state between two actions: every changed value is within its limits. -/
structure Settled (editor : GlobalConfigurationEditor) : Prop where
  available : editor.available = true
  size : SizeSettled editor.totalRamMb editor.draft.baselineOverlay editor.draft.overlay
  warning : WarningSettled editor.draft.baselineOverlay editor.draft.overlay
  critical : editor.CriticalBounded

/-! ## What an action leaves alone -/

/-- What does not change between two states, for an action that may change the
type and the size, or the thresholds. -/
structure Keeps (storage thresholds : Bool) (before after : GlobalConfigurationEditor) : Prop where
  baseline : after.draft.baselineOverlay = before.draft.baselineOverlay
  totalRam : after.totalRamMb = before.totalRamMb
  available : after.available = before.available
  storage : storage = false → after.draft.overlay.type = before.draft.overlay.type ∧
    after.draft.overlay.maximumSizeMb = before.draft.overlay.maximumSizeMb
  thresholds : thresholds = false →
    after.draft.overlay.warningThresholdMb = before.draft.overlay.warningThresholdMb ∧
      after.draft.overlay.criticalThresholdMb = before.draft.overlay.criticalThresholdMb
  critical : before.CriticalBounded → after.CriticalBounded

theorem Keeps.refl (storage thresholds : Bool) (editor : GlobalConfigurationEditor) :
    Keeps storage thresholds editor editor :=
  ⟨rfl, rfl, rfl, fun _ => ⟨rfl, rfl⟩, fun _ => ⟨rfl, rfl⟩, id⟩

theorem Keeps.trans {storage thresholds storage' thresholds' : Bool}
    {first second third : GlobalConfigurationEditor} (hfirst : Keeps storage thresholds first second)
    (hsecond : Keeps storage' thresholds' second third) :
    Keeps (storage || storage') (thresholds || thresholds') first third where
  baseline := hsecond.baseline.trans hfirst.baseline
  totalRam := hsecond.totalRam.trans hfirst.totalRam
  available := hsecond.available.trans hfirst.available
  storage hnone := by
    rw [Bool.or_eq_false_iff] at hnone
    obtain ⟨htype, hsize⟩ := hfirst.storage hnone.1
    obtain ⟨htype', hsize'⟩ := hsecond.storage hnone.2
    exact ⟨htype'.trans htype, hsize'.trans hsize⟩
  thresholds hnone := by
    rw [Bool.or_eq_false_iff] at hnone
    obtain ⟨hwarning, hcritical⟩ := hfirst.thresholds hnone.1
    obtain ⟨hwarning', hcritical'⟩ := hsecond.thresholds hnone.2
    exact ⟨hwarning'.trans hwarning, hcritical'.trans hcritical⟩
  critical := hsecond.critical ∘ hfirst.critical

theorem editorValue_le (value : UInt32) : editorValue value ≤ editorMaximum := by
  show (if _ then _ else _ : UInt32) ≤ _
  split_ifs with hle
  · exact hle
  · exact UInt32.le_refl _

theorem editedNumber_le (value : Int32) : editedNumber value ≤ editorMaximum := by
  have hbound := value.toNatClampNeg_lt
  have hmaximum : editorMaximum.toNat = 2147483647 := rfl
  rw [UInt32.le_iff_toNat_le, editedNumber, UInt32.toNat_ofNat', hmaximum]
  omega

theorem importField_keeps (editor : GlobalConfigurationEditor) (field : Import) :
    Keeps field.touchesStorage field.touchesThresholds editor (editor.importField field).2 := by
  cases field with
  | filterEnabled value =>
      simp only [importField, importFilterEnabled]
      split_ifs
      · exact Keeps.refl _ _ editor
      · exact ⟨rfl, rfl, rfl, fun _ => ⟨rfl, rfl⟩, fun _ => ⟨rfl, rfl⟩, id⟩
  | overlayType value =>
      simp only [importField, importOverlayType]
      split_ifs
      · exact Keeps.refl _ _ editor
      · exact ⟨rfl, rfl, rfl, Bool.noConfusion, fun _ => ⟨rfl, rfl⟩, id⟩
      · exact Keeps.refl _ _ editor
  | overlayMaxMb value =>
      simp only [importField, importOverlayMaxMb]
      split_ifs
      · exact Keeps.refl _ _ editor
      · exact ⟨rfl, rfl, rfl, Bool.noConfusion, fun _ => ⟨rfl, rfl⟩, id⟩
  | overlayWarnMb value =>
      simp only [importField, importOverlayWarnMb]
      split_ifs
      · exact Keeps.refl _ _ editor
      · exact ⟨rfl, rfl, rfl, fun _ => ⟨rfl, rfl⟩, Bool.noConfusion, id⟩
  | overlayCritMb value =>
      simp only [importField, importOverlayCritMb]
      split_ifs
      · exact Keeps.refl _ _ editor
      · exact ⟨rfl, rfl, rfl, fun _ => ⟨rfl, rfl⟩, Bool.noConfusion,
          fun _ _ => editorValue_le value⟩

theorem importFields_keeps (editor : GlobalConfigurationEditor) (fields : List Import) :
    Keeps (fields.any Import.touchesStorage) (fields.any Import.touchesThresholds) editor
      (editor.importFields fields).2 := by
  induction fields generalizing editor with
  | nil => exact Keeps.refl _ _ editor
  | cons field rest ih =>
      rw [List.any_cons, List.any_cons]
      exact (importField_keeps editor field).trans (ih _)

/-- An import that is not accepted changes nothing. -/
theorem importField_rejected {editor : GlobalConfigurationEditor} {field : Import}
    (hrejected : (editor.importField field).1 = false) : (editor.importField field).2 = editor := by
  cases field <;> simp only [importField, importFilterEnabled, importOverlayType, importOverlayMaxMb,
    importOverlayWarnMb, importOverlayCritMb] at hrejected ⊢ <;> split_ifs at hrejected ⊢ <;> rfl

theorem importFields_rejected {editor : GlobalConfigurationEditor} {fields : List Import}
    (hrejected : (editor.importFields fields).1 = false) :
    (editor.importFields fields).2 = editor := by
  induction fields generalizing editor with
  | nil => rfl
  | cons field rest ih =>
      rw [importFields, Bool.or_eq_false_iff] at hrejected
      have hfirst := importField_rejected hrejected.1
      have hrest := hrejected.2
      rw [hfirst] at hrest
      rw [importFields, hfirst]
      exact ih hrest

/-! ## Settled states -/

theorem normalize_overlay (editor : GlobalConfigurationEditor) :
    editor.normalize.draft.overlay = normalizeWarning editor.draft.baselineOverlay
      (normalizeSize editor.totalRamMb editor.draft.baselineOverlay editor.draft.overlay) := rfl

/-- The values that an action has changed are settled by `normalize`, and the
ones that it has left alone stay as they are. -/
theorem normalize_spec {storage thresholds : Bool} {before after : GlobalConfigurationEditor}
    (hsettled : before.Settled) (hkeeps : Keeps storage thresholds before after) :
    after.normalize.Settled ∧ Keeps storage thresholds before after.normalize := by
  obtain ⟨hwarning, hcritical⟩ := normalizeSize_thresholds after.totalRamMb
    after.draft.baselineOverlay after.draft.overlay
  obtain ⟨htype, hsize, hcritical'⟩ := normalizeWarning_others after.draft.baselineOverlay
    (normalizeSize after.totalRamMb after.draft.baselineOverlay after.draft.overlay)
  have hbounded : after.normalize.CriticalBounded := by
    rw [CriticalBounded, normalize_overlay, hcritical', hcritical]
    exact hkeeps.critical hsettled.critical
  refine ⟨⟨hkeeps.available.trans hsettled.available, ?_, ?_, hbounded⟩,
    ⟨hkeeps.baseline, hkeeps.totalRam, hkeeps.available, fun hnone => ?_, fun hnone => ?_,
      fun _ => hbounded⟩⟩
  · exact sizeSettled_congr htype hsize (sizeSettled_normalizeSize _ _ _)
  · exact warningSettled_normalizeWarning _ _
  · obtain ⟨hsameType, hsameSize⟩ := hkeeps.storage hnone
    have hstays : SizeSettled after.totalRamMb after.draft.baselineOverlay after.draft.overlay := by
      rw [hkeeps.totalRam, hkeeps.baseline]
      exact sizeSettled_congr hsameType hsameSize hsettled.size
    rw [normalize_overlay, htype, hsize, normalizeSize_of_settled hstays]
    exact ⟨hsameType, hsameSize⟩
  · obtain ⟨hsameWarning, hsameCritical⟩ := hkeeps.thresholds hnone
    have hstays : WarningSettled after.draft.baselineOverlay
        (normalizeSize after.totalRamMb after.draft.baselineOverlay after.draft.overlay) := by
      refine warningSettled_congr (hwarning.trans hsameWarning) (hcritical.trans hsameCritical) ?_
      rw [hkeeps.baseline]
      exact hsettled.warning
    rw [normalize_overlay, normalizeWarning_of_settled hstays, hwarning, hcritical]
    exact ⟨hsameWarning, hsameCritical⟩

theorem step_spec {editor : GlobalConfigurationEditor} (hsettled : editor.Settled)
    (action : Action) :
    (editor.step action).Settled ∧
      Keeps action.touchesStorage action.touchesThresholds editor (editor.step action) := by
  cases action with
  | filterEnabled value =>
      exact ⟨⟨hsettled.available, hsettled.size, hsettled.warning, hsettled.critical⟩,
        ⟨rfl, rfl, rfl, fun _ => ⟨rfl, rfl⟩, fun _ => ⟨rfl, rfl⟩, id⟩⟩
  | overlayType value =>
      exact normalize_spec hsettled
        ⟨rfl, rfl, rfl, Bool.noConfusion, fun _ => ⟨rfl, rfl⟩, id⟩
  | maximumSize value =>
      exact normalize_spec hsettled
        ⟨rfl, rfl, rfl, Bool.noConfusion, fun _ => ⟨rfl, rfl⟩, id⟩
  | warningThreshold value =>
      exact normalize_spec hsettled
        ⟨rfl, rfl, rfl, fun _ => ⟨rfl, rfl⟩, Bool.noConfusion, id⟩
  | criticalThreshold value =>
      exact normalize_spec hsettled
        ⟨rfl, rfl, rfl, fun _ => ⟨rfl, rfl⟩, Bool.noConfusion, fun _ _ => editedNumber_le value⟩
  | importBatch fields =>
      have hkeeps := importFields_keeps editor fields
      rw [step, finishImport, if_neg (by simp [hkeeps.available, hsettled.available])]
      exact normalize_spec hsettled hkeeps

theorem settled_reset (editor : GlobalConfigurationEditor) (next : SessionSnapshot) :
    (editor.reset next).Settled where
  available := rfl
  size h := absurd h (by simp [reset, setAvailable, updateRanges])
  warning h := absurd h (by simp [reset, setAvailable, updateRanges])
  critical h := absurd rfl h

/-! ## The main result -/

theorem settled_run {editor : GlobalConfigurationEditor} (hsettled : editor.Settled)
    (actions : List Action) :
    (actions.foldl step editor).Settled ∧
      (actions.foldl step editor).draft.baselineOverlay = editor.draft.baselineOverlay := by
  induction actions generalizing editor with
  | nil => exact ⟨hsettled, rfl⟩
  | cons action rest ih =>
      obtain ⟨hstep, hkeeps⟩ := step_spec hsettled action
      obtain ⟨hrest, hbaseline⟩ := ih hstep
      exact ⟨hrest, hbaseline.trans hkeeps.baseline⟩

/-- What the pending fields ask for can be written, and every changed value is
within the limits of the editor. -/
structure Applicable (editor : GlobalConfigurationEditor) (baseline : OverlayConfig) : Prop where
  valid : (editor.pendingOverlay.applyTo baseline).Valid
  size : ∀ size, editor.pendingOverlay.maximumSizeMb = some size →
    (maximumSizeRange (editor.pendingOverlay.applyTo baseline).type editor.totalRamMb).minimum ≤ size ∧
      size ≤ (maximumSizeRange (editor.pendingOverlay.applyTo baseline).type
        editor.totalRamMb).maximum
  warning : ∀ warning, editor.pendingOverlay.warningThresholdMb = some warning →
    warning ≤ warningThresholdMaximum
      (editor.pendingOverlay.applyTo baseline).criticalThresholdMb
  critical : ∀ critical, editor.pendingOverlay.criticalThresholdMb = some critical →
    critical ≤ editorMaximum

theorem pendingOverlay_eq {editor : GlobalConfigurationEditor} (hsettled : editor.Settled) :
    editor.pendingOverlay = editor.draft.pendingOverlay := if_pos hsettled.available

theorem applicable_of_settled {editor : GlobalConfigurationEditor} (hsettled : editor.Settled)
    (hvalid : editor.draft.baselineOverlay.Valid) :
    editor.Applicable editor.draft.baselineOverlay := by
  have htarget : editor.pendingOverlay.applyTo editor.draft.baselineOverlay =
      editor.draft.overlay := by
    rw [pendingOverlay_eq hsettled, GlobalConfigurationDraft.applyTo_pendingOverlay]
  constructor
  case valid =>
    rw [htarget]
    constructor
    case storage =>
      intro hdisk
      by_cases hchanged : editor.draft.overlay.type ≠ editor.draft.baselineOverlay.type ∨
          editor.draft.overlay.maximumSizeMb ≠ editor.draft.baselineOverlay.maximumSizeMb
      · have hlow := (hsettled.size hchanged).1
        rwa [hdisk] at hlow
      · rw [not_or, not_not, not_not] at hchanged
        rw [hchanged.2]
        exact hvalid.storage (hchanged.1 ▸ hdisk)
    case thresholds =>
      by_cases hchanged : editor.draft.overlay.warningThresholdMb ≠
          editor.draft.baselineOverlay.warningThresholdMb ∨
          editor.draft.overlay.criticalThresholdMb ≠
            editor.draft.baselineOverlay.criticalThresholdMb
      · exact thresholdsValid_of_le (hsettled.warning hchanged)
      · rw [not_or, not_not, not_not] at hchanged
        rw [OverlayConfig.ThresholdsValid, hchanged.1, hchanged.2]
        exact hvalid.thresholds
  case size =>
    intro size hsize
    rw [htarget]
    rw [pendingOverlay_eq hsettled, GlobalConfigurationDraft.pendingOverlay] at hsize
    dsimp only at hsize
    split_ifs at hsize with hchanged
    rw [← Option.some.inj hsize]
    exact hsettled.size (Or.inr hchanged)
  case warning =>
    intro warning hwarning
    rw [htarget]
    rw [pendingOverlay_eq hsettled, GlobalConfigurationDraft.pendingOverlay] at hwarning
    dsimp only at hwarning
    split_ifs at hwarning with hchanged
    rw [← Option.some.inj hwarning]
    exact hsettled.warning (Or.inl hchanged)
  case critical =>
    intro critical hcritical
    rw [pendingOverlay_eq hsettled, GlobalConfigurationDraft.pendingOverlay] at hcritical
    dsimp only at hcritical
    split_ifs at hcritical with hchanged
    rw [← Option.some.inj hcritical]
    exact hsettled.critical hchanged

/-- A finished batch of which nothing was accepted leaves the draft as it was. -/
theorem finishImport_rejected {editor : GlobalConfigurationEditor} (hsettled : editor.Settled)
    {fields : List Import} (hrejected : (editor.importFields fields).1 = false) :
    (editor.step (.importBatch fields)).draft = editor.draft := by
  rw [step, importFields_rejected hrejected, finishImport,
    if_neg (by simp [hsettled.available])]
  have hoverlay := normalize_overlay editor
  rw [normalizeSize_of_settled hsettled.size, normalizeWarning_of_settled hsettled.warning]
    at hoverlay
  show (⟨editor.draft.baselineFilter, editor.draft.baselineOverlay, editor.draft.filterEnabled,
    editor.normalize.draft.overlay⟩ : GlobalConfigurationDraft) = editor.draft
  rw [hoverlay]

theorem nothing_pending_reset (editor : GlobalConfigurationEditor) (next : SessionSnapshot) :
    (editor.reset next).pendingOverlay = {} ∧ (editor.reset next).pendingFilterEnabled = none := by
  simp [reset, setAvailable, updateRanges, pendingOverlay, pendingFilterEnabled,
    GlobalConfigurationDraft.pendingOverlay, GlobalConfigurationDraft.pendingFilterEnabled]

/-- After any edits and imports of a valid baseline the pending fields can be
applied, an action makes none of the fields pending that it does not touch,
and neither a reset nor a batch of rejected imports makes anything pending. -/
theorem pendingOverlay_applicable (editor : GlobalConfigurationEditor) (next : SessionSnapshot)
    (hvalid : next.overlay.Valid) (actions : List Action) :
    let edited := actions.foldl step (editor.reset next)
    edited.Applicable next.overlay ∧
      (∀ action : Action, action.touchesStorage = false →
        (edited.step action).pendingOverlay.type = edited.pendingOverlay.type ∧
          (edited.step action).pendingOverlay.maximumSizeMb =
            edited.pendingOverlay.maximumSizeMb) ∧
      (∀ action : Action, action.touchesThresholds = false →
        (edited.step action).pendingOverlay.warningThresholdMb =
            edited.pendingOverlay.warningThresholdMb ∧
          (edited.step action).pendingOverlay.criticalThresholdMb =
            edited.pendingOverlay.criticalThresholdMb) ∧
      (∀ fields, (edited.importFields fields).1 = false →
        (edited.step (.importBatch fields)).pendingOverlay = edited.pendingOverlay ∧
          (edited.step (.importBatch fields)).pendingFilterEnabled =
            edited.pendingFilterEnabled) ∧
      ∀ later : SessionSnapshot,
        ((edited.reset later).pendingOverlay = {} ∧
          (edited.reset later).pendingFilterEnabled = none) ∧
        ∀ fields, ((edited.reset later).importFields fields).1 = false →
          ((edited.reset later).step (.importBatch fields)).pendingOverlay = {} ∧
            ((edited.reset later).step (.importBatch fields)).pendingFilterEnabled = none := by
  intro edited
  obtain ⟨hsettled, hbaseline⟩ : edited.Settled ∧ edited.draft.baselineOverlay = next.overlay :=
    settled_run (settled_reset editor next) actions
  have hrejected : ∀ {start : GlobalConfigurationEditor}, start.Settled → ∀ {fields},
      (start.importFields fields).1 = false →
      (start.step (.importBatch fields)).pendingOverlay = start.pendingOverlay ∧
        (start.step (.importBatch fields)).pendingFilterEnabled = start.pendingFilterEnabled := by
    intro start hstart fields hfields
    have havailable : (start.step (.importBatch fields)).available = start.available :=
      (step_spec hstart (.importBatch fields)).2.available
    rw [pendingOverlay, pendingOverlay, pendingFilterEnabled, pendingFilterEnabled,
      finishImport_rejected hstart hfields, havailable]
    exact ⟨rfl, rfl⟩
  refine ⟨?_, fun action htouches => ?_, fun action htouches => ?_,
    fun fields hfields => hrejected hsettled hfields,
    fun later => ⟨nothing_pending_reset edited later, fun fields hfields => ?_⟩⟩
  · rw [← hbaseline]
    exact applicable_of_settled hsettled (by rwa [hbaseline])
  · obtain ⟨hstep, hkeeps⟩ := step_spec hsettled action
    obtain ⟨htype, hsize⟩ := hkeeps.storage htouches
    rw [pendingOverlay_eq hstep, pendingOverlay_eq hsettled]
    simp only [GlobalConfigurationDraft.pendingOverlay, htype, hsize, hkeeps.baseline, and_self]
  · obtain ⟨hstep, hkeeps⟩ := step_spec hsettled action
    obtain ⟨hwarning, hcritical⟩ := hkeeps.thresholds htouches
    rw [pendingOverlay_eq hstep, pendingOverlay_eq hsettled]
    simp only [GlobalConfigurationDraft.pendingOverlay, hwarning, hcritical, hkeeps.baseline,
      and_self]
  · obtain ⟨hoverlay, hfilter⟩ := hrejected (settled_reset edited later) hfields
    rw [hoverlay, hfilter]
    exact nothing_pending_reset edited later

/-- A disk overlay that is larger than the memory, moved to memory and given
thresholds by a batch. -/
theorem pendingOverlay_applicable_toMemory :
    (([.overlayType .ram, .importBatch [.overlayWarnMb 900, .overlayCritMb 800]] :
        List Action).foldl step ((⟨{}, {}, {}, {}, 2048, true, false⟩ :
          GlobalConfigurationEditor).reset
        { overlay := ⟨.disk, 4096, 0, 0⟩ })).Applicable ⟨.disk, 4096, 0, 0⟩ :=
  (pendingOverlay_applicable ⟨{}, {}, {}, {}, 2048, true, false⟩
    { overlay := ⟨.disk, 4096, 0, 0⟩ } (by decide)
    [.overlayType .ram, .importBatch [.overlayWarnMb 900, .overlayCritMb 800]]).1

end GlobalConfigurationEditor

end UwfManager
