import UwfManager.Configuration.ConfigurationImporter
import UwfManager.Library.LastByKey

/-!
# The last command of each field

The global commands of a batch set fields of one draft, and the draft is reconciled when the
batch is finished.  The file compares the draft with the one that the last command of each
field leaves alone.  They differ only where the system has a number above the limit of the
editor: a command that asks for the number it has is ignored, but once another command has
changed the field, the same command is cut to the limit.
-/

namespace UwfManager

namespace GlobalConfigurationEditor

/-! ## One field -/

namespace Import

def enabled? : Import → Option Bool
  | .filterEnabled value => some value
  | _ => none

def type? : Import → Option OverlayType
  | .overlayType value => some value
  | _ => none

def size? : Import → Option UInt32
  | .overlayMaxMb value => some value
  | _ => none

def warning? : Import → Option UInt32
  | .overlayWarnMb value => some value
  | _ => none

def critical? : Import → Option UInt32
  | .overlayCritMb value => some value
  | _ => none

/-- The commands ask for no other types. -/
def Named (field : Import) : Prop := ∀ type, field.type? = some type → type = .ram ∨ type = .disk

end Import

/-- What `importNumber` makes of its target. -/
def importedNumber (target value : UInt32) : UInt32 :=
  if target = value ∨ target = editorValue value then target else editorValue value

theorem editorValue_eq_self {value : UInt32} (hvalue : value ≤ editorMaximum) :
    editorValue value = value := by
  show (if _ then _ else _ : UInt32) = _
  rw [if_pos hvalue]

theorem editorValue_of_lt {value : UInt32} (hvalue : editorMaximum < value) :
    editorValue value = editorMaximum := by
  show (if _ then _ else _ : UInt32) = _
  rw [if_neg (UInt32.not_le.mpr hvalue)]

theorem importedNumber_of_ne {target value : UInt32} (hne : target ≠ value) :
    importedNumber target value = editorValue value := by
  rw [importedNumber]
  split_ifs with hsame
  · exact hsame.resolve_left hne
  · rfl

theorem importedNumber_self (value : UInt32) : importedNumber value value = value :=
  if_pos (Or.inl rfl)

/-- From a number within the limit every command sets its value. -/
theorem importedNumber_of_le {target value : UInt32} (htarget : target ≤ editorMaximum) :
    importedNumber target value = editorValue value := by
  by_cases hsame : target = value
  · rw [← hsame, importedNumber_self, editorValue_eq_self htarget]
  · exact importedNumber_of_ne hsame

/-- The commands leave the number or bring it within the limit. -/
theorem foldl_importedNumber (start : UInt32) (values : List UInt32) :
    ((∀ value ∈ values, value = start) ∧ values.foldl importedNumber start = start) ∨
      (∃ value ∈ values, value ≠ start) ∧ values.foldl importedNumber start ≤ editorMaximum := by
  induction values using List.reverseRecOn with
  | nil => exact .inl ⟨nofun, rfl⟩
  | append_singleton earlier value ih =>
      rw [List.foldl_append, List.foldl_cons, List.foldl_nil]
      rcases ih with ⟨hsame, hfold⟩ | ⟨⟨other, hother, hne⟩, hfold⟩
      · rw [hfold]
        by_cases hvalue : value = start
        · subst hvalue
          refine .inl ⟨fun other hother => ?_, importedNumber_self value⟩
          rcases List.mem_append.mp hother with hearlier | hlast
          · exact hsame other hearlier
          · exact List.mem_singleton.mp hlast
        · rw [importedNumber_of_ne (Ne.symm hvalue)]
          exact .inr ⟨⟨value, List.mem_append_right _ List.mem_cons_self, hvalue⟩,
            editorValue_le value⟩
      · rw [importedNumber_of_le hfold]
        exact .inr ⟨⟨other, List.mem_append_left _ hother, hne⟩, editorValue_le value⟩

/-- A number above the limit of the editor is first changed and last asked for again. -/
structure ReturnsTo (baseline : UInt32) (values : List UInt32) : Prop where
  large : editorMaximum < baseline
  last : values.getLast? = some baseline
  changed : ∃ value ∈ values, value ≠ baseline

theorem foldl_of_returnsTo {baseline : UInt32} {values : List UInt32}
    (hreturns : ReturnsTo baseline values) :
    values.foldl importedNumber baseline = editorMaximum ∧
      values.getLast?.toList.foldl importedNumber baseline = baseline := by
  constructor
  · obtain ⟨earlier, rfl⟩ := List.getLast?_eq_some_iff.mp hreturns.last
    obtain ⟨value, hvalue, hne⟩ := hreturns.changed
    rw [List.foldl_append, List.foldl_cons, List.foldl_nil]
    rcases foldl_importedNumber baseline earlier with ⟨hsame, -⟩ | ⟨-, hfold⟩
    · rcases List.mem_append.mp hvalue with hearlier | hlast
      · exact absurd (hsame value hearlier) hne
      · exact absurd (List.mem_singleton.mp hlast) hne
    · rw [importedNumber_of_le hfold, editorValue_of_lt hreturns.large]
  · rw [hreturns.last]
    exact importedNumber_self baseline

/-- Otherwise the last command alone decides. -/
theorem foldl_eq_last {baseline : UInt32} {values : List UInt32}
    (hstays : ¬ReturnsTo baseline values) :
    values.foldl importedNumber baseline =
      values.getLast?.toList.foldl importedNumber baseline := by
  rcases List.eq_nil_or_concat values with rfl | ⟨earlier, value, rfl⟩
  · rfl
  · rw [List.concat_eq_append] at hstays ⊢
    rw [List.getLast?_concat, List.foldl_append, List.foldl_cons, List.foldl_nil]
    change _ = importedNumber baseline value
    rcases foldl_importedNumber baseline earlier with ⟨-, hfold⟩ | ⟨⟨other, hother, hne⟩, hfold⟩
    · rw [hfold]
    · rw [importedNumber_of_le hfold]
      by_cases hvalue : baseline = value
      · subst hvalue
        have hsmall : baseline ≤ editorMaximum := by
          rw [← UInt32.not_lt]
          intro hlarge
          exact hstays ⟨hlarge, List.getLast?_concat, other,
            List.mem_append_left _ hother, hne⟩
        rw [editorValue_eq_self hsmall, importedNumber_self]
      · rw [importedNumber_of_ne hvalue]

/-! ## The draft of a batch -/

/-- Each field of the draft is set by its own commands. -/
def batchDraft (draft : GlobalConfigurationDraft) (fields : List Import) :
    GlobalConfigurationDraft :=
  { draft with
    filterEnabled := (fields.filterMap Import.enabled?).foldl (fun _ value => value)
      draft.filterEnabled
    overlay :=
      { type := (fields.filterMap Import.type?).foldl (fun _ value => value) draft.overlay.type
        maximumSizeMb := (fields.filterMap Import.size?).foldl importedNumber
          draft.overlay.maximumSizeMb
        warningThresholdMb := (fields.filterMap Import.warning?).foldl importedNumber
          draft.overlay.warningThresholdMb
        criticalThresholdMb := (fields.filterMap Import.critical?).foldl importedNumber
          draft.overlay.criticalThresholdMb } }

theorem importField_draft {editor : GlobalConfigurationEditor} (havailable : editor.available = true)
    {field : Import} (hnamed : field.Named) :
    (editor.importField field).2.draft = batchDraft editor.draft [field] ∧
      (editor.importField field).2.available = true := by
  have hgate : ∀ {rejected : Prop} [Decidable rejected] {other : Bool × GlobalConfigurationEditor},
      (if (!editor.available) = true ∨ rejected then (false, editor) else other) =
        if rejected then (false, editor) else other := by
    intro rejected _ other
    rw [havailable]
    simp only [Bool.not_true, Bool.false_eq_true, false_or]
  cases field with
  | filterEnabled value =>
      rw [importField, importFilterEnabled, hgate]
      split_ifs with hsame
      · subst hsame
        exact ⟨rfl, havailable⟩
      · exact ⟨rfl, havailable⟩
  | overlayType value =>
      rw [importField, importOverlayType, hgate]
      split_ifs with hsame hknown
      · subst hsame
        exact ⟨rfl, havailable⟩
      · exact ⟨rfl, havailable⟩
      · exact absurd (hnamed value rfl) hknown
  | overlayMaxMb value =>
      have hdraft : batchDraft editor.draft [.overlayMaxMb value] = { editor.draft with
          overlay := { editor.draft.overlay with
            maximumSizeMb := importedNumber editor.draft.overlay.maximumSizeMb value } } := rfl
      rw [importField, importOverlayMaxMb]
      dsimp only
      rw [hgate, hdraft, importedNumber]
      split_ifs with hsame
      · exact ⟨rfl, havailable⟩
      · exact ⟨rfl, havailable⟩
  | overlayWarnMb value =>
      have hdraft : batchDraft editor.draft [.overlayWarnMb value] = { editor.draft with
          overlay := { editor.draft.overlay with
            warningThresholdMb := importedNumber editor.draft.overlay.warningThresholdMb value } } := rfl
      rw [importField, importOverlayWarnMb]
      dsimp only
      rw [hgate, hdraft, importedNumber]
      split_ifs with hsame
      · exact ⟨rfl, havailable⟩
      · exact ⟨rfl, havailable⟩
  | overlayCritMb value =>
      have hdraft : batchDraft editor.draft [.overlayCritMb value] = { editor.draft with
          overlay := { editor.draft.overlay with
            criticalThresholdMb := importedNumber editor.draft.overlay.criticalThresholdMb value } } := rfl
      rw [importField, importOverlayCritMb]
      dsimp only
      rw [hgate, hdraft, importedNumber]
      split_ifs with hsame
      · exact ⟨rfl, havailable⟩
      · exact ⟨rfl, havailable⟩

theorem batchDraft_cons (draft : GlobalConfigurationDraft) (field : Import) (rest : List Import) :
    batchDraft draft (field :: rest) = batchDraft (batchDraft draft [field]) rest := by
  cases field <;> rfl

theorem importFields_draft {editor : GlobalConfigurationEditor}
    (havailable : editor.available = true) {fields : List Import}
    (hnamed : ∀ field ∈ fields, field.Named) :
    (editor.importFields fields).2.draft = batchDraft editor.draft fields := by
  induction fields generalizing editor with
  | nil => rfl
  | cons field rest ih =>
      obtain ⟨hfield, hrest⟩ := List.forall_mem_cons.mp hnamed
      obtain ⟨hdraft, hstays⟩ := importField_draft havailable hfield
      rw [importFields, batchDraft_cons, ← hdraft]
      exact ih hstays hrest

/-! ## The reconciled values -/

/-- A number that has changed, or that another change concerns, is cut to its range. -/
def settledNumber (forced : Prop) [Decidable forced] (baseline value : UInt32)
    (range : EditorRange) : UInt32 :=
  if forced ∨ value ≠ baseline then bounded value range else value

theorem bounded_of_maximum_le {value : UInt32} {range : EditorRange}
    (hrange : range.minimum ≤ range.maximum) (hvalue : range.maximum ≤ value) :
    bounded value range = range.maximum := by
  rw [bounded, if_neg (UInt32.not_lt.mpr (UInt32.le_trans hrange hvalue))]
  split_ifs with hlt
  · rfl
  · exact UInt32.le_antisymm (UInt32.not_lt.mp hlt) hvalue

/-- A large number and the limit are cut to the same, but the large number is cut only if
another change forces it. -/
theorem settledNumber_eq_iff {forced : Prop} [Decidable forced] {baseline : UInt32}
    {range : EditorRange} (hrange : range.minimum ≤ range.maximum)
    (hmaximum : range.maximum ≤ editorMaximum) (hlarge : editorMaximum < baseline) :
    settledNumber forced baseline editorMaximum range =
      settledNumber forced baseline baseline range ↔ forced := by
  have hne : editorMaximum ≠ baseline := UInt32.ne_of_lt hlarge
  have hcut : settledNumber forced baseline editorMaximum range = range.maximum := by
    rw [settledNumber, if_pos (Or.inr hne), bounded_of_maximum_le hrange hmaximum]
  rw [hcut, settledNumber]
  by_cases hforced : forced
  · rw [if_pos (Or.inl hforced), bounded_of_maximum_le hrange
      (UInt32.le_of_lt (UInt32.lt_of_le_of_lt hmaximum hlarge))]
    exact iff_of_true rfl hforced
  · rw [if_neg (not_or.mpr ⟨hforced, not_not.mpr rfl⟩)]
    exact iff_of_false (UInt32.ne_of_lt (UInt32.lt_of_le_of_lt hmaximum hlarge)) hforced

theorem maximumSizeRange_le_editor (type : OverlayType) (totalRamMb : UInt32) :
    (maximumSizeRange type totalRamMb).maximum ≤ editorMaximum := by
  have hminimum : (overlaySizeBounds type totalRamMb).minimum ≤ editorMaximum := by
    rw [overlaySizeBounds]
    dsimp only
    split_ifs
    · exact UInt32.zero_le
    · decide
  have hmaximum : (overlaySizeBounds type totalRamMb).maximum ≤ editorMaximum := by
    rw [overlaySizeBounds]
    dsimp only
    split_ifs
    · exact editorValue_le totalRamMb
    · exact UInt32.le_refl _
  show (if _ then _ else _ : UInt32) ≤ _
  split_ifs
  · exact hmaximum
  · exact hminimum

theorem warningThresholdMaximum_le (critical : UInt32) :
    warningThresholdMaximum critical ≤ editorMaximum := by
  rw [warningThresholdMaximum]
  split_ifs with hfree
  · exact UInt32.le_refl _
  · rw [not_or] at hfree
    rw [strictThresholdUpper]
    split_ifs with hone
    · exact UInt32.zero_le
    · have hle : critical - 1 ≤ critical :=
        UInt32.sub_le (UInt32.le_of_lt (UInt32.not_le.mp hone))
      exact UInt32.le_trans hle (UInt32.not_lt.mp hfree.2)

/-- The fields of a reconciled overlay. -/
theorem normalized_eq (totalRamMb : UInt32) (baseline overlay : OverlayConfig) :
    normalizeWarning baseline (normalizeSize totalRamMb baseline overlay) =
      { type := overlay.type
        maximumSizeMb := settledNumber (overlay.type ≠ baseline.type) baseline.maximumSizeMb
          overlay.maximumSizeMb (maximumSizeRange overlay.type totalRamMb)
        warningThresholdMb := settledNumber
          (overlay.criticalThresholdMb ≠ baseline.criticalThresholdMb) baseline.warningThresholdMb
          overlay.warningThresholdMb ⟨0, warningThresholdMaximum overlay.criticalThresholdMb⟩
        criticalThresholdMb := overlay.criticalThresholdMb } := by
  obtain ⟨hwarning, hcritical⟩ := normalizeSize_thresholds totalRamMb baseline overlay
  rw [normalizeWarning, hwarning, hcritical, settledNumber, settledNumber, normalizeSize]
  have hor := @or_comm (overlay.warningThresholdMb ≠ baseline.warningThresholdMb)
    (overlay.criticalThresholdMb ≠ baseline.criticalThresholdMb)
  simp only [hor]
  split_ifs <;> rfl

/-! ## The last command of each field -/

/-- In this batch the last command of each field decides: no critical threshold returns to a
large number, a warning threshold only if the critical one changes, and a size only if the type
changes. -/
structure LastDecides (baseline : OverlayConfig) (fields : List Import) : Prop where
  critical : ¬ReturnsTo baseline.criticalThresholdMb (fields.filterMap Import.critical?)
  warning : ReturnsTo baseline.warningThresholdMb (fields.filterMap Import.warning?) →
    ∃ value, (fields.filterMap Import.critical?).getLast? = some value ∧
      value ≠ baseline.criticalThresholdMb ∧ editorValue value ≠ baseline.criticalThresholdMb
  size : ReturnsTo baseline.maximumSizeMb (fields.filterMap Import.size?) →
    ∃ type, (fields.filterMap Import.type?).getLast? = some type ∧ type ≠ baseline.type

/-- These are the last commands of each field, in some order. -/
structure Lasts (fields lasts : List Import) : Prop where
  enabled : lasts.filterMap Import.enabled? = (fields.filterMap Import.enabled?).getLast?.toList
  type : lasts.filterMap Import.type? = (fields.filterMap Import.type?).getLast?.toList
  size : lasts.filterMap Import.size? = (fields.filterMap Import.size?).getLast?.toList
  warning : lasts.filterMap Import.warning? = (fields.filterMap Import.warning?).getLast?.toList
  critical : lasts.filterMap Import.critical? = (fields.filterMap Import.critical?).getLast?.toList

/-- What the last assignment has set. -/
theorem foldl_last {α : Type} (start : α) (values : List α) :
    values.foldl (fun _ value => value) start = values.getLast?.getD start := by
  rcases List.eq_nil_or_concat values with rfl | ⟨earlier, value, rfl⟩
  · rfl
  · rw [List.concat_eq_append, List.getLast?_concat, List.foldl_append]
    rfl

theorem getLast?_toList {α : Type} (last : Option α) : last.toList.getLast? = last := by
  cases last with
  | none => rfl
  | some value => rfl

theorem foldl_eq_last_iff {baseline : UInt32} {values : List UInt32} :
    values.foldl importedNumber baseline =
        values.getLast?.toList.foldl importedNumber baseline ↔ ¬ReturnsTo baseline values := by
  constructor
  · intro hsame hreturns
    obtain ⟨hbatch, hlast⟩ := foldl_of_returnsTo hreturns
    rw [hbatch, hlast] at hsame
    exact UInt32.ne_of_lt hreturns.large hsame
  · exact foldl_eq_last

theorem settled_eq_last_iff {forced : Prop} [Decidable forced] {baseline : UInt32}
    {values : List UInt32} {range : EditorRange} (hrange : range.minimum ≤ range.maximum)
    (hmaximum : range.maximum ≤ editorMaximum) :
    settledNumber forced baseline (values.foldl importedNumber baseline) range =
        settledNumber forced baseline (values.getLast?.toList.foldl importedNumber baseline) range ↔
      (ReturnsTo baseline values → forced) := by
  by_cases hreturns : ReturnsTo baseline values
  · obtain ⟨hbatch, hlast⟩ := foldl_of_returnsTo hreturns
    rw [hbatch, hlast, settledNumber_eq_iff hrange hmaximum hreturns.large]
    exact ⟨fun hforced _ => hforced, fun hforced => hforced hreturns⟩
  · rw [foldl_eq_last hreturns]
    exact iff_of_true rfl fun hreturns' => absurd hreturns' hreturns

theorem getD_ne_iff {α : Type} {last : Option α} {baseline : α} :
    last.getD baseline ≠ baseline ↔ ∃ value, last = some value ∧ value ≠ baseline := by
  cases last with
  | none => exact iff_of_false (fun h => h rfl) nofun
  | some value =>
      constructor
      · exact fun hne => ⟨value, rfl, hne⟩
      · rintro ⟨other, hother, hne⟩
        cases hother
        exact hne

theorem last_ne_iff {last : Option UInt32} {baseline : UInt32} :
    last.toList.foldl importedNumber baseline ≠ baseline ↔
      ∃ value, last = some value ∧ value ≠ baseline ∧ editorValue value ≠ baseline := by
  cases last with
  | none => exact iff_of_false (fun h => h rfl) nofun
  | some value =>
      change importedNumber baseline value ≠ baseline ↔ _
      rw [importedNumber]
      split_ifs with hsame
      · refine iff_of_false (fun h => h rfl) ?_
        rintro ⟨other, hother, hne, hcut⟩
        cases hother
        exact hsame.elim (fun h => hne h.symm) fun h => hcut h.symm
      · rw [not_or] at hsame
        constructor
        · exact fun hne => ⟨value, rfl, fun h => hsame.1 h.symm, hne⟩
        · rintro ⟨other, hother, -, hcut⟩
          cases hother
          exact hcut

/-- A reconciled draft. -/
def settledDraft (totalRamMb : UInt32) (draft : GlobalConfigurationDraft) :
    GlobalConfigurationDraft :=
  { draft with
    overlay := normalizeWarning draft.baselineOverlay
      (normalizeSize totalRamMb draft.baselineOverlay draft.overlay) }

theorem settledDraft_eq_iff {totalRamMb : UInt32} {draft : GlobalConfigurationDraft}
    (hdraft : draft.overlay = draft.baselineOverlay) {fields lasts : List Import}
    (hlasts : Lasts fields lasts) :
    settledDraft totalRamMb (batchDraft draft fields) =
        settledDraft totalRamMb (batchDraft draft lasts) ↔
      LastDecides draft.baselineOverlay fields := by
  rw [settledDraft, settledDraft, normalized_eq, normalized_eq]
  simp only [batchDraft, hdraft, hlasts.enabled, hlasts.type, hlasts.size, hlasts.warning,
    hlasts.critical, foldl_last, getLast?_toList, GlobalConfigurationDraft.mk.injEq,
    OverlayConfig.mk.injEq, true_and]
  constructor
  · rintro ⟨hsize, hwarning, hcritical⟩
    rw [hcritical] at hwarning
    rw [settled_eq_last_iff UInt32.zero_le (warningThresholdMaximum_le _)] at hwarning
    rw [settled_eq_last_iff (maximumSizeRange_le _ _) (maximumSizeRange_le_editor _ _)] at hsize
    exact ⟨foldl_eq_last_iff.mp hcritical, fun hreturns => last_ne_iff.mp (hwarning hreturns),
      fun hreturns => getD_ne_iff.mp (hsize hreturns)⟩
  · intro hdecides
    have hcritical := foldl_eq_last hdecides.critical
    rw [hcritical, settled_eq_last_iff (maximumSizeRange_le _ _) (maximumSizeRange_le_editor _ _),
      settled_eq_last_iff UInt32.zero_le (warningThresholdMaximum_le _)]
    exact ⟨fun hreturns => getD_ne_iff.mpr (hdecides.size hreturns),
      fun hreturns => last_ne_iff.mpr (hdecides.warning hreturns), rfl⟩

end GlobalConfigurationEditor

/-! ## The commands of a batch -/

open Commands GlobalConfigurationEditor

variable (qt : Qt) (services : ImportServices)

/-- The call of the editor for a field and a value. -/
def importOfValue : GlobalField → GlobalValue → Option Import
  | .filter, .enabled value => some (.filterEnabled value)
  | .overlayType, .overlayType value => some (.overlayType value)
  | .maximumSize, .megabytes value => some (.overlayMaxMb value)
  | .warningThreshold, .megabytes value => some (.overlayWarnMb value)
  | .criticalThreshold, .megabytes value => some (.overlayCritMb value)
  | _, _ => none

/-- The call that a command makes, if it is a global command with a value. -/
def commandImport (command : UwfmgrCommand) : Option Import :=
  (globalField command.kind).bind fun field =>
    (requestedValue services field command.kind (command.args.headD [])).bind (importOfValue field)

/-- The global commands of a batch are accepted. -/
structure AcceptedBatch (commands : List UwfmgrCommand) : Prop where
  parsed : ∀ command ∈ commands, command.parseError = .none ∨ command.parseError = .comment
  requested : ∀ command ∈ commands, (commandImport services command).isSome = true
  first : ∀ command ∈ commands.head?, command.requiresPrevious = false

/-- The last command of each field. -/
def lastCommands (commands : List UwfmgrCommand) : List UwfmgrCommand :=
  LastByKey.lastByKey (fun command => globalField command.kind) commands

/-- The draft after a batch. -/
def importedDraft (commands : List UwfmgrCommand) (editors : ImportEditors) :
    Option GlobalConfigurationDraft :=
  (applyImportCommands qt services commands editors).2.global.map (·.draft)

variable {qt services}

theorem applyGlobalValue_eq {field : GlobalField} {value : GlobalValue} {import' : Import}
    (himport : importOfValue field value = some import') (editor : GlobalConfigurationEditor) :
    applyGlobalValue editor field value = editor.importField import' := by
  cases field <;> cases value <;> cases himport <;> rfl

theorem commandImport_eq_some {command : UwfmgrCommand} {import' : Import}
    (himport : commandImport services command = some import') :
    ∃ field value, globalField command.kind = some field ∧
      requestedValue services field command.kind (command.args.headD []) = some value ∧
      importOfValue field value = some import' := by
  obtain ⟨field, hfield, hrest⟩ := Option.bind_eq_some_iff.mp himport
  obtain ⟨value, hvalue, hof⟩ := Option.bind_eq_some_iff.mp hrest
  exact ⟨field, value, hfield, hvalue, hof⟩

/-- An accepted command makes its call. -/
theorem importParsed_global {command : UwfmgrCommand} {import' : Import}
    (hparsed : command.parseError = .none ∨ command.parseError = .comment)
    (himport : commandImport services command = some import') {state : ImportState}
    {editor : GlobalConfigurationEditor} (hglobal : state.editors.global = some editor)
    (havailable : editor.available = true) :
    (state.importParsed qt services command).editors.global =
        some (editor.importField import').2 ∧
      (state.importParsed qt services command).previousAccepted = true := by
  obtain ⟨field, value, hfield, hvalue, hof⟩ := commandImport_eq_some himport
  have herror : ¬(command.parseError ≠ .none ∧ command.parseError ≠ .comment) := by
    rintro ⟨hnone, hcomment⟩
    exact hparsed.elim hnone hcomment
  rw [ImportState.importParsed, if_neg herror]
  dsimp only
  rw [hfield]
  dsimp only
  rw [ImportState.importGlobal, hglobal]
  dsimp only
  rw [havailable, if_neg (show ¬(!true) = true from nofun), hvalue]
  dsimp only
  rw [applyGlobalValue_eq hof]
  refine ⟨rfl, ?_⟩
  rw [ImportState.appendResult]
  cases (editor.importField import').1 <;> rfl

/-- A batch of accepted commands makes their calls in order. -/
theorem importCommands_global {commands : List UwfmgrCommand}
    (hparsed : ∀ command ∈ commands, command.parseError = .none ∨ command.parseError = .comment)
    (hrequested : ∀ command ∈ commands, (commandImport services command).isSome = true)
    {state : ImportState} (hfirst : state.previousAccepted = true ∨
      ∀ command ∈ commands.head?, command.requiresPrevious = false)
    {editor : GlobalConfigurationEditor} (hglobal : state.editors.global = some editor)
    (havailable : editor.available = true) :
    (state.importCommands qt services commands).editors.global =
      some (editor.importFields (commands.filterMap (commandImport services))).2 := by
  induction commands generalizing state editor with
  | nil => exact hglobal
  | cons command rest ih =>
      obtain ⟨hcommand, hrest⟩ := List.forall_mem_cons.mp hparsed
      obtain ⟨himport, himports⟩ := List.forall_mem_cons.mp hrequested
      obtain ⟨import', himport⟩ := Option.isSome_iff_exists.mp himport
      have hrun : ¬(command.requiresPrevious && !state.previousAccepted) = true := by
        rcases hfirst with hprevious | hfirst
        · rw [hprevious, Bool.not_true, Bool.and_false]
          exact nofun
        · rw [hfirst command rfl, Bool.false_and]
          exact nofun
      obtain ⟨hafter, haccepted⟩ := @importParsed_global qt services command import'
        hcommand himport state editor hglobal havailable
      have hstays : (editor.importField import').2.available = true :=
        (importField_keeps editor import').available.trans havailable
      rw [List.filterMap_cons_some himport, importFields]
      change (ImportState.importCommands qt services rest
        (state.importCommand qt services command)).editors.global = _
      rw [ImportState.importCommand, if_neg hrun]
      exact ih hrest himports (.inl haccepted) hafter hstays

theorem named_of_commandImport {command : UwfmgrCommand} {import' : Import}
    (himport : commandImport services command = some import') : import'.Named := by
  obtain ⟨field, value, -, hvalue, hof⟩ := commandImport_eq_some himport
  intro type htype
  cases import' with
  | overlayType other =>
      cases htype
      cases field <;> cases value <;> cases hof
      rw [requestedValue] at hvalue
      split_ifs at hvalue with hdisk
      · cases hvalue
        exact .inr rfl
      · cases hvalue
        exact .inl rfl
  | _ => cases htype

theorem importedDraft_eq {commands : List UwfmgrCommand} (hcommands : AcceptedBatch services commands)
    {editors : ImportEditors} {editor : GlobalConfigurationEditor}
    (hglobal : editors.global = some editor) (havailable : editor.available = true) :
    importedDraft qt services commands editors =
      some (settledDraft editor.totalRamMb
        (batchDraft editor.draft (commands.filterMap (commandImport services)))) := by
  have hnamed : ∀ field ∈ commands.filterMap (commandImport services), field.Named := by
    intro field hfield
    obtain ⟨command, -, himport⟩ := List.mem_filterMap.mp hfield
    exact named_of_commandImport himport
  have hbatch := @importCommands_global qt services commands hcommands.parsed hcommands.requested
    { editors := editors } (.inr hcommands.first) editor hglobal havailable
  have hdraft := importFields_draft havailable hnamed
  have hkeeps := importFields_keeps editor (commands.filterMap (commandImport services))
  generalize editor.importFields (commands.filterMap (commandImport services)) = imported
    at hbatch hdraft hkeeps
  have hfinish : ¬(!imported.2.available) = true := by
    rw [hkeeps.available, havailable]
    exact nofun
  rw [importedDraft, applyImportCommands, finishImportState, hbatch]
  dsimp only
  rw [Option.map_some, finishImport, if_neg hfinish, ← hdraft, ← hkeeps.totalRam]
  rfl

/-- The field that a call sets. -/
def fieldOf : Import → GlobalField
  | .filterEnabled _ => .filter
  | .overlayType _ => .overlayType
  | .overlayMaxMb _ => .maximumSize
  | .overlayWarnMb _ => .warningThreshold
  | .overlayCritMb _ => .criticalThreshold

theorem fieldOf_of_importOfValue {field : GlobalField} {value : GlobalValue} {import' : Import}
    (himport : importOfValue field value = some import') : fieldOf import' = field := by
  cases field <;> cases value <;> cases himport <;> rfl

/-- What is read of one field alone is read of the last command of that field. -/
theorem filterMap_lastCommands {β : Type} {read : Import → Option β} {field : GlobalField}
    (hread : ∀ import', (read import').isSome = true ↔ fieldOf import' = field)
    {commands lasts : List UwfmgrCommand}
    (hrequested : ∀ command ∈ commands, (commandImport services command).isSome = true)
    (hlasts : lasts.Perm (lastCommands commands)) :
    (lasts.filterMap (commandImport services)).filterMap read =
      ((commands.filterMap (commandImport services)).filterMap read).getLast?.toList := by
  rw [List.filterMap_filterMap, List.filterMap_filterMap]
  apply LastByKey.eq_toList_of_perm
  have hkeys : ∀ command ∈ commands,
      ((commandImport services command).bind read).isSome = true ↔
        globalField command.kind = some field := by
    intro command hcommand
    obtain ⟨import', himport⟩ := Option.isSome_iff_exists.mp (hrequested command hcommand)
    obtain ⟨other, value, hfield, -, hof⟩ := commandImport_eq_some himport
    rw [himport, Option.bind_some, hread, hfield, Option.some.injEq, fieldOf_of_importOfValue hof]
  rw [← LastByKey.filterMap_lastByKey hkeys]
  exact hlasts.filterMap _

theorem lasts_of_lastCommands {commands lasts : List UwfmgrCommand}
    (hrequested : ∀ command ∈ commands, (commandImport services command).isSome = true)
    (hlasts : lasts.Perm (lastCommands commands)) :
    Lasts (commands.filterMap (commandImport services))
      (lasts.filterMap (commandImport services)) where
  enabled := @filterMap_lastCommands services Bool Import.enabled? .filter
    (fun import' => by cases import' <;> simp [Import.enabled?, fieldOf]) commands lasts hrequested hlasts
  type := @filterMap_lastCommands services OverlayType Import.type? .overlayType
    (fun import' => by cases import' <;> simp [Import.type?, fieldOf]) commands lasts hrequested hlasts
  size := @filterMap_lastCommands services UInt32 Import.size? .maximumSize
    (fun import' => by cases import' <;> simp [Import.size?, fieldOf]) commands lasts hrequested hlasts
  warning := @filterMap_lastCommands services UInt32 Import.warning? .warningThreshold
    (fun import' => by cases import' <;> simp [Import.warning?, fieldOf]) commands lasts hrequested hlasts
  critical := @filterMap_lastCommands services UInt32 Import.critical? .criticalThreshold
    (fun import' => by cases import' <;> simp [Import.critical?, fieldOf]) commands lasts hrequested hlasts

theorem acceptedBatch_lasts {commands lasts : List UwfmgrCommand}
    (hcommands : AcceptedBatch services commands) (hlasts : lasts.Perm (lastCommands commands))
    (hfirst : ∀ command ∈ lasts.head?, command.requiresPrevious = false) :
    AcceptedBatch services lasts where
  parsed command hcommand := hcommands.parsed command
    (LastByKey.lastByKey_subset commands (hlasts.subset hcommand))
  requested command hcommand := hcommands.requested command
    (LastByKey.lastByKey_subset commands (hlasts.subset hcommand))
  first := hfirst

/-- Importing a batch into the configuration that the system has, and importing the last command
of each field in any order, leave the same draft exactly if the last commands decide. -/
theorem importedDraft_lasts_iff (editors : ImportEditors) (editor : GlobalConfigurationEditor)
    (next : SessionSnapshot) {commands lasts : List UwfmgrCommand}
    (hcommands : AcceptedBatch services commands) (hlasts : lasts.Perm (lastCommands commands))
    (hfirst : ∀ command ∈ lasts.head?, command.requiresPrevious = false) :
    importedDraft qt services commands { editors with global := some (editor.reset next) } =
        importedDraft qt services lasts { editors with global := some (editor.reset next) } ↔
      LastDecides next.overlay (commands.filterMap (commandImport services)) := by
  rw [importedDraft_eq hcommands rfl rfl,
    importedDraft_eq (acceptedBatch_lasts hcommands hlasts hfirst) rfl rfl, Option.some.injEq]
  exact settledDraft_eq_iff rfl (lasts_of_lastCommands hcommands.requested hlasts)

namespace SizeExample

/-- Decimal numbers without a sign. -/
def decimal : ImportServices where
  toUInt text := some (UInt32.ofNat
    (text.foldl (fun number digit => number * 10 + (digit.toNat - '0'.toNat)) 0))
  resolveDrive _ := .ok []

def sizeCommand (size : String) : UwfmgrCommand := makeCmd .overlaySetSize [size.toList]

def editor : GlobalConfigurationEditor := {}

/-- A size that is set twice. -/
def commands : List UwfmgrCommand := [sizeCommand "2048", sizeCommand "4096"]

theorem acceptedBatch_commands : AcceptedBatch decimal commands where
  parsed := by decide
  requested := by decide +kernel
  first := by decide

theorem importedDraft_lasts_iff_size :
    importedDraft Qt.ascii decimal commands { global := some (editor.reset {}) } =
        importedDraft Qt.ascii decimal [sizeCommand "4096"]
          { global := some (editor.reset {}) } := by
  apply (importedDraft_lasts_iff {} editor {} acceptedBatch_commands (by decide +kernel)
    (by decide)).mpr
  constructor
  · exact fun hreturns => absurd hreturns.large (by decide)
  · exact fun hreturns => absurd hreturns.large (by decide)
  · exact fun hreturns => absurd hreturns.large (by decide)

/-- The system has a size of 3000000000 MB.  A command that asks for it changes nothing, but after
another command has set 100 MB it is cut to the limit of the editor. -/
theorem returning_size_cut :
    AcceptedBatch decimal [sizeCommand "100", sizeCommand "3000000000"] ∧
      [sizeCommand "3000000000"].Perm
        (lastCommands [sizeCommand "100", sizeCommand "3000000000"]) ∧
      importedDraft Qt.ascii decimal [sizeCommand "100", sizeCommand "3000000000"]
          { global := some (editor.reset { overlay := { maximumSizeMb := 3000000000 } }) } ≠
        importedDraft Qt.ascii decimal [sizeCommand "3000000000"]
          { global := some (editor.reset { overlay := { maximumSizeMb := 3000000000 } }) } :=
  ⟨⟨by decide, by decide +kernel, by decide⟩, by decide +kernel, by decide +kernel⟩

end SizeExample

end UwfManager
