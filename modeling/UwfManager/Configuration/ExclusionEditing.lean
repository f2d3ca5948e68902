import UwfManager.Configuration.ExclusionEditor

/-!
# Runs of the exclusion editor

Two facts hold together in every state: the draft is consistent, and each of
its entries already has the form it has under the current drive letter.  The
second makes a comparison of entries up to case the comparison of the paths
they stand for.  A new drive letter changes that form, and can make an addition
equal to an entry of the baseline; the runs in which it does not keep both.
-/

namespace UwfManager

variable (qt : Qt)

namespace ExclusionEditor

/-! ## Identity of paths -/

/-- The path under the current drive letter, up to case. -/
def identity (editor : ExclusionEditor) (path : Text) : Text :=
  (editor.absoluteFilePath qt path).map qt.foldCase

def identities (editor : ExclusionEditor) (paths : List Text) : Set Text :=
  { key | ∃ path ∈ paths, editor.identity qt path = key }

/-- The next session without the removals and with the additions. -/
def effective (editor : ExclusionEditor) : Set Text :=
  editor.identities qt (editor.draft.effectiveNext qt)

structure KeepsSets (editor : ExclusionEditor) : Prop where
  addedNotInNext : Disjoint (editor.identities qt editor.draft.added)
    (editor.identities qt editor.draft.next)
  removedInNext : editor.identities qt editor.draft.removed ⊆
    editor.identities qt editor.draft.next
  addedNotRemoved : Disjoint (editor.identities qt editor.draft.added)
    (editor.identities qt editor.draft.removed)
  addedDistinct : (editor.draft.added.map (editor.identity qt)).Nodup
  removedDistinct : (editor.draft.removed.map (editor.identity qt)).Nodup

/-- A path that is given to an editor of files is one of the class. -/
def Takes (plain : Text → Prop) (editor : ExclusionEditor) (path : Text) : Prop :=
  editor.kind = .file → plain path

/-- Every edit that succeeds has its effect on the paths it names and no other
effect, and an edit that does not succeed leaves the draft as it is. -/
structure EditsAsAsked (plain : Text → Prop) (editor : ExclusionEditor) : Prop where
  addEntry : ∀ raw, editor.Takes plain raw → (editor.addEntry qt raw).1.outcome = .applied →
    (editor.addEntry qt raw).2.effective qt =
      insert (editor.identity qt (editor.entryPath qt raw)) (editor.effective qt)
  addEntry_rejected : ∀ raw, (editor.addEntry qt raw).1.outcome ≠ .applied →
    (editor.addEntry qt raw).2.draft = editor.draft
  importAdd : ∀ raw, editor.Takes plain raw → (editor.importAdd qt raw).1 = .applied →
    (editor.importAdd qt raw).2.effective qt =
      insert (editor.identity qt (editor.entryPath qt raw)) (editor.effective qt)
  importAdd_rejected : ∀ raw, (editor.importAdd qt raw).1 ≠ .applied →
    (editor.importAdd qt raw).2.draft = editor.draft
  importRemove : ∀ raw, editor.Takes plain raw → (editor.importRemove qt raw).1 = .applied →
    (editor.importRemove qt raw).2.effective qt =
      editor.effective qt \ {editor.identity qt (editor.entryPath qt raw)}
  importRemove_rejected : ∀ raw, (editor.importRemove qt raw).1 ≠ .applied →
    (editor.importRemove qt raw).2.draft = editor.draft
  removeSelection : ∀ selection : List Selection,
    (∀ item ∈ selection, item.persistence = none → editor.Takes plain item.path) →
    (editor.removeSelection qt selection).1 = true →
    (editor.removeSelection qt selection).2.effective qt =
      editor.effective qt \ { key | ∃ item ∈ selection, item.persistence = none ∧
        editor.identity qt (editor.selectedPath qt item) = key }
  removeSelection_rejected : ∀ selection, (editor.removeSelection qt selection).1 = false →
    (editor.removeSelection qt selection).2.draft = editor.draft
  restoreSelection : ∀ selection : List Selection,
    (∀ item ∈ selection, item.persistence = none → editor.Takes plain item.path) →
    (editor.restoreSelection qt selection).1 = true →
    (editor.restoreSelection qt selection).2.effective qt =
      editor.effective qt ∪ { key | ∃ item ∈ selection, item.persistence = none ∧
        editor.identity qt (editor.entryPath qt item.path) = key }
  restoreSelection_rejected : ∀ selection, (editor.restoreSelection qt selection).1 = false →
    (editor.restoreSelection qt selection).2.draft = editor.draft

/-! ## Runs -/

inductive Action where
  | setBaseline (current next : List Text)
  | setDriveLetter (dl : Text)
  | addEntry (raw : Text)
  | importAdd (raw : Text)
  | importRemove (raw : Text)
  | removeSelection (selection : List Selection)
  | restoreSelection (selection : List Selection)
  | resetPending
  | setSystemDriveLetter (dl : Text)
  | setReadOnly (value : Bool)
  | enablePersistence (item : PersistenceItem)
  | setFileStagingDataProbe (probe : Option (Except Thrown Bool))
  /-- The conflict policy is told of other staged paths. -/
  | setStagedEntries (entries : List FileStagingEntry)

def step (editor : ExclusionEditor) : Action → ExclusionEditor
  | .setBaseline current next => editor.setBaseline qt current next
  | .setDriveLetter dl => editor.setDriveLetter qt dl
  | .addEntry raw => (editor.addEntry qt raw).2
  | .importAdd raw => (editor.importAdd qt raw).2
  | .importRemove raw => (editor.importRemove qt raw).2
  | .removeSelection selection => (editor.removeSelection qt selection).2
  | .restoreSelection selection => (editor.restoreSelection qt selection).2
  | .resetPending => editor.resetPending qt
  | .setSystemDriveLetter dl => editor.setSystemDriveLetter dl
  | .setReadOnly value => editor.setReadOnly value
  | .enablePersistence item => editor.enablePersistence item
  | .setFileStagingDataProbe probe => editor.setFileStagingDataProbe qt probe
  | .setStagedEntries entries =>
      { editor with conflicts := editor.conflicts.map (·.setStagedEntries qt entries) }

/-- Under the new drive letter no addition stands for an entry of the baseline. -/
def LetterFits (editor : ExclusionEditor) : Action → Prop
  | .setDriveLetter dl =>
      let bound : ExclusionEditor := { editor with driveLetter := Drive.bind dl }
      ∀ added ∈ editor.draft.added, ∀ next ∈ editor.draft.next,
        bound.identity qt added ≠ bound.identity qt next
  | _ => True

instance (editor : ExclusionEditor) (action : Action) : Decidable (editor.LetterFits qt action) :=
  match action with
  | .setDriveLetter _ => by unfold LetterFits; infer_instance
  | .setBaseline .. | .addEntry _ | .importAdd _ | .importRemove _ | .removeSelection _
  | .restoreSelection _ | .resetPending | .setSystemDriveLetter _ | .setReadOnly _
  | .enablePersistence _ | .setFileStagingDataProbe _ | .setStagedEntries _ =>
      inferInstanceAs (Decidable True)

/-- The paths that the action brings along are of the class. -/
def Handles (plain : Text → Prop) (editor : ExclusionEditor) : Action → Prop
  | .setBaseline _ next => ∀ path ∈ next, editor.Takes plain path
  | .addEntry raw | .importAdd raw | .importRemove raw => editor.Takes plain raw
  | .removeSelection selection | .restoreSelection selection =>
      ∀ item ∈ selection, item.persistence = none → editor.Takes plain item.path
  | _ => True

/-! ## Entries in their form under the drive letter -/

section Form

variable {plain : Text → Prop}

variable (plain) in
/-- A path of the class in the form it has under the drive letter. -/
def InForm (editor : ExclusionEditor) (path : Text) : Prop :=
  editor.absoluteFilePath qt path = path ∧ editor.Takes plain path

/-- Every entry that can be compared is valid. -/
def Resolved (valid : Text → Prop) (draft : ExclusionDraft) : Prop :=
  ∀ path, path ∈ draft.next ∨ path ∈ draft.added ∨ path ∈ draft.removed → valid path

variable (plain) in
structure Settled (editor : ExclusionEditor) : Prop where
  consistent : editor.draft.Consistent qt
  resolved : Resolved (editor.InForm qt plain) editor.draft

/-- The form of a path depends on the kind and the drive letter alone. -/
theorem absoluteFilePath_congr {first second : ExclusionEditor} (hkind : first.kind = second.kind)
    (hletter : first.driveLetter = second.driveLetter) :
    first.absoluteFilePath qt = second.absoluteFilePath qt := by
  funext path
  rw [absoluteFilePath, absoluteFilePath, hkind, hletter]

@[simp]
theorem publishFileExclusions_draft (editor : ExclusionEditor) :
    (editor.publishFileExclusions qt).draft = editor.draft := by
  rw [publishFileExclusions]
  split <;> rfl

@[simp]
theorem publishFileExclusions_absoluteFilePath (editor : ExclusionEditor) :
    (editor.publishFileExclusions qt).absoluteFilePath qt = editor.absoluteFilePath qt := by
  apply absoluteFilePath_congr <;> rw [publishFileExclusions] <;> split <;> rfl

@[simp]
theorem publishFileExclusions_kind (editor : ExclusionEditor) :
    (editor.publishFileExclusions qt).kind = editor.kind := by
  rw [publishFileExclusions]
  split <;> rfl

theorem inForm_publishFileExclusions (editor : ExclusionEditor) :
    (editor.publishFileExclusions qt).InForm qt plain = editor.InForm qt plain := by
  funext path
  rw [InForm, publishFileExclusions_absoluteFilePath, Takes, publishFileExclusions_kind, InForm,
    Takes]

@[simp]
theorem absoluteFilePath_draft (editor : ExclusionEditor) (draft : ExclusionDraft) :
    ({ editor with draft := draft } : ExclusionEditor).absoluteFilePath qt =
      editor.absoluteFilePath qt := rfl

theorem settled_publishFileExclusions {editor : ExclusionEditor} :
    (editor.publishFileExclusions qt).Settled qt plain ↔ editor.Settled qt plain := by
  constructor
  · rintro ⟨hconsistent, hresolved⟩
    rw [publishFileExclusions_draft] at hconsistent hresolved
    rw [inForm_publishFileExclusions] at hresolved
    exact ⟨hconsistent, hresolved⟩
  · rintro ⟨hconsistent, hresolved⟩
    refine ⟨?_, ?_⟩
    · rwa [publishFileExclusions_draft]
    · rwa [publishFileExclusions_draft, inForm_publishFileExclusions]

/-- In a settled editor identities are the entries up to case. -/
theorem identities_eq {editor : ExclusionEditor} {paths : List Text}
    (hresolved : ∀ path ∈ paths, editor.absoluteFilePath qt path = path) :
    editor.identities qt paths = foldedSet qt paths := by
  ext key
  constructor
  · rintro ⟨path, hmem, rfl⟩
    exact ⟨path, hmem, by rw [identity, hresolved path hmem]⟩
  · rintro ⟨path, hmem, rfl⟩
    exact ⟨path, hmem, by rw [identity, hresolved path hmem]⟩

theorem nodup_identity {editor : ExclusionEditor} {paths : List Text}
    (hresolved : ∀ path ∈ paths, editor.absoluteFilePath qt path = path)
    (hdistinct : DistinctTexts qt paths) : (paths.map (editor.identity qt)).Nodup := by
  rwa [List.map_congr_left fun path hmem =>
    show editor.identity qt path = path.map qt.foldCase by rw [identity, hresolved path hmem]]

theorem keepsSets_of_settled {editor : ExclusionEditor} (hsettled : editor.Settled qt plain) :
    editor.KeepsSets qt := by
  have hnext : editor.identities qt editor.draft.next = _ :=
    identities_eq qt fun path hmem => (hsettled.resolved path (Or.inl hmem)).1
  have hadded : editor.identities qt editor.draft.added = _ :=
    identities_eq qt fun path hmem => (hsettled.resolved path (Or.inr (Or.inl hmem))).1
  have hremoved : editor.identities qt editor.draft.removed = _ :=
    identities_eq qt fun path hmem => (hsettled.resolved path (Or.inr (Or.inr hmem))).1
  have hsets := hsettled.consistent
  refine ⟨?_, ?_, ?_, ?_, ?_⟩
  · rw [hadded, hnext]
    exact hsets.disjoint
  · rw [hremoved, hnext]
    exact hsets.subset
  · rw [hadded, hremoved]
    exact hsets.disjoint.mono_right hsets.subset
  · exact nodup_identity qt (fun path hmem => (hsettled.resolved path (Or.inr (Or.inl hmem))).1)
      hsets.addedDistinct
  · exact nodup_identity qt (fun path hmem => (hsettled.resolved path (Or.inr (Or.inr hmem))).1)
      hsets.removedDistinct

theorem effective_eq {editor : ExclusionEditor} (hsettled : editor.Settled qt plain) :
    editor.effective qt = foldedSet qt (editor.draft.effectiveNext qt) := by
  refine identities_eq qt fun path hmem => (hsettled.resolved path ?_).1
  rw [ExclusionDraft.effectiveNext, List.mem_append, List.mem_filter] at hmem
  exact hmem.imp And.left Or.inl

/-! ## What an addition and a removal do -/

theorem resolved_add {valid : Text → Prop} {draft : ExclusionDraft}
    (hresolved : Resolved valid draft) {p : Text} (hp : valid p) :
    Resolved valid (draft.add qt p).2 := by
  rw [ExclusionDraft.add]
  split_ifs
  · rintro path (hnext | hadded | hremoved)
    · exact hresolved path (Or.inl hnext)
    · exact hresolved path (Or.inr (Or.inl hadded))
    · exact hresolved path (Or.inr (Or.inr (List.mem_filter.1 hremoved).1))
  · rintro path (hnext | hadded | hremoved)
    · exact hresolved path (Or.inl hnext)
    · rcases List.mem_append.1 hadded with hadded | hnew
      · exact hresolved path (Or.inr (Or.inl hadded))
      · rwa [List.mem_singleton.1 hnew]
    · exact hresolved path (Or.inr (Or.inr hremoved))
  · exact hresolved

theorem resolved_remove {valid : Text → Prop} {draft : ExclusionDraft}
    (hresolved : Resolved valid draft) {p : Text} (hp : valid p) :
    Resolved valid (draft.remove qt p).2 := by
  rw [ExclusionDraft.remove]
  split_ifs
  · rintro path (hnext | hadded | hremoved)
    · exact hresolved path (Or.inl hnext)
    · exact hresolved path (Or.inr (Or.inl (List.mem_filter.1 hadded).1))
    · exact hresolved path (Or.inr (Or.inr hremoved))
  · rintro path (hnext | hadded | hremoved)
    · exact hresolved path (Or.inl hnext)
    · exact hresolved path (Or.inr (Or.inl hadded))
    · rcases List.mem_append.1 hremoved with hremoved | hnew
      · exact hresolved path (Or.inr (Or.inr hremoved))
      · rwa [List.mem_singleton.1 hnew]
  · exact hresolved

/-- The editor after its draft became the given one. -/
def withDraft (editor : ExclusionEditor) (draft : ExclusionDraft) : ExclusionEditor :=
  ({ editor with draft := draft } : ExclusionEditor).publishFileExclusions qt

theorem settled_withDraft {editor : ExclusionEditor} {draft : ExclusionDraft}
    (hconsistent : draft.Consistent qt)
    (hresolved : Resolved (editor.InForm qt plain) draft) :
    (editor.withDraft qt draft).Settled qt plain :=
  (settled_publishFileExclusions qt).2 ⟨hconsistent, hresolved⟩

theorem effective_withDraft {editor : ExclusionEditor} {draft : ExclusionDraft}
    (hconsistent : draft.Consistent qt)
    (hresolved : Resolved (editor.InForm qt plain) draft) :
    (editor.withDraft qt draft).effective qt = foldedSet qt (draft.effectiveNext qt) := by
  rw [effective_eq qt (settled_withDraft qt hconsistent hresolved), withDraft,
    publishFileExclusions_draft]

section Edits

variable {editor : ExclusionEditor} (hsettled : editor.Settled qt plain)
include hsettled

/-- Adding a resolved path puts its identity into the effective set. -/
theorem effective_withDraft_add {p : Text} (hp : editor.InForm qt plain p) :
    (editor.withDraft qt (editor.draft.add qt p).2).effective qt =
      insert (editor.identity qt p) (editor.effective qt) := by
  obtain ⟨hconsistent, -⟩ := ExclusionDraft.add_refines qt hsettled.consistent p
  rw [effective_withDraft qt hconsistent (resolved_add qt hsettled.resolved hp),
    ExclusionDraft.effectiveNext_add qt hsettled.consistent, effective_eq qt hsettled, identity,
    hp.1]

theorem effective_withDraft_remove {p : Text} (hp : editor.InForm qt plain p) :
    (editor.withDraft qt (editor.draft.remove qt p).2).effective qt =
      editor.effective qt \ {editor.identity qt p} := by
  obtain ⟨hconsistent, -⟩ := ExclusionDraft.remove_refines qt hsettled.consistent p
  rw [effective_withDraft qt hconsistent (resolved_remove qt hsettled.resolved hp),
    ExclusionDraft.effectiveNext_remove qt hsettled.consistent, effective_eq qt hsettled, identity,
    hp.1]

end Edits

end Form

/-! ## Paths that are entered -/

section Paths

variable {qt} {plain : Text → Prop} (hqt : Paths.Normalizes qt plain)
include hqt

theorem inForm_absoluteFilePath {editor : ExclusionEditor} {path : Text}
    (hpath : editor.Takes plain path) :
    editor.InForm qt plain (editor.absoluteFilePath qt path) := by
  by_cases hstays : editor.kind ≠ .file ∨ path = []
  · have hform : editor.absoluteFilePath qt path = path := by
      rw [absoluteFilePath, if_pos hstays]
    rw [hform]
    exact ⟨hform, hpath⟩
  · have hresolves : editor.absoluteFilePath qt path =
        Paths.normalizeOn qt editor.driveLetter.letter path := by
      rw [absoluteFilePath, if_neg hstays]
    have hplain := hpath (not_not.1 (not_or.1 hstays).1)
    rw [hresolves]
    refine ⟨?_, fun _ => Paths.plain_normalizeOn hqt editor.driveLetter hplain⟩
    rw [absoluteFilePath, Paths.normalizeOn_idempotent hqt _ hplain, ite_self]

omit hqt in
/-- A registry key is compared in the form in which it is stored. -/
theorem inForm_registry {editor : ExclusionEditor} (hkind : editor.kind = .registry)
    (path : Text) : editor.InForm qt plain path := by
  constructor
  · rw [absoluteFilePath, if_pos (Or.inl (by rw [hkind]; decide))]
  · intro hfile
    rw [hkind] at hfile
    cases hfile

theorem inForm_entryPath {editor : ExclusionEditor} {raw : Text}
    (hraw : editor.Takes plain raw) : editor.InForm qt plain (editor.entryPath qt raw) := by
  cases hkind : editor.kind with
  | file =>
      rw [entryPath, hkind]
      exact inForm_absoluteFilePath hqt fun hfile => hqt.trimmed raw (hraw hfile)
  | registry => exact inForm_registry hkind _

theorem inForm_selectedPath {editor : ExclusionEditor} {item : Selection}
    (hitem : editor.Takes plain item.path) :
    editor.InForm qt plain (editor.selectedPath qt item) := by
  cases hkind : editor.kind with
  | file =>
      rw [selectedPath, hkind]
      exact inForm_absoluteFilePath hqt hitem
  | registry => exact inForm_registry hkind _

/-- The form under a drive letter respects the case of the path. -/
theorem identity_congr {editor : ExclusionEditor} {first second : Text}
    (hfirst : editor.Takes plain first) (hcase : first.map qt.foldCase = second.map qt.foldCase) :
    editor.identity qt first = editor.identity qt second := by
  have hempty : first = [] ↔ second = [] := by
    rw [← List.map_eq_nil_iff, hcase, List.map_eq_nil_iff]
  rw [identity, identity, absoluteFilePath, absoluteFilePath]
  by_cases hstays : editor.kind ≠ .file ∨ first = []
  · rw [if_pos hstays, if_pos (hstays.imp_right hempty.1), hcase]
  · rw [if_neg hstays, if_neg fun h => hstays (h.imp_right hempty.2)]
    exact Paths.normalizeOn_congr hqt editor.driveLetter
      (hfirst (not_not.1 (not_or.1 hstays).1)) hcase

end Paths

/-- An accepted addition is of the entered path. -/
theorem validateAddition_path {editor : ExclusionEditor} {raw : Text}
    (happlied : (editor.validateAddition qt raw).outcome = .applied) :
    (editor.validateAddition qt raw).path = editor.entryPath qt raw := by
  by_cases hempty : (qt.trimmed raw).isEmpty = true
  · rw [validateAddition, if_pos hempty] at happlied
    exact absurd happlied (by decide)
  rw [validateAddition, if_neg hempty]
  dsimp only
  cases editor.kind with
  | file =>
      dsimp only
      split
      · rfl
      · split
        · rfl
        · split <;> rfl
  | registry =>
      dsimp only
      split <;> rfl

/-! ## The edits -/

theorem add_unchanged {draft : ExclusionDraft} {p : Text} (hsame : (draft.add qt p).1 = false) :
    (draft.add qt p).2 = draft := by
  rw [ExclusionDraft.add] at hsame ⊢
  split_ifs at hsame ⊢
  rfl

theorem addEntry_spec (editor : ExclusionEditor) (raw : Text) :
    (editor.addEntry qt raw).2.draft = editor.draft ∧
        (editor.addEntry qt raw).1.outcome ≠ .applied ∧
        ((editor.addEntry qt raw).2 = editor ∨
          (editor.addEntry qt raw).2 = editor.withDraft qt editor.draft) ∨
      (editor.addEntry qt raw).1.outcome = .applied ∧
        (editor.addEntry qt raw).2 =
          editor.withDraft qt (editor.draft.add qt (editor.entryPath qt raw)).2 := by
  by_cases haccepted : (editor.validateAddition qt raw).outcome = .applied
  · have hadd : editor.addEntry qt raw =
        ({ editor.validateAddition qt raw with
            outcome := if (editor.draft.add qt (editor.entryPath qt raw)).1 then .applied
              else .noOp },
          editor.withDraft qt (editor.draft.add qt (editor.entryPath qt raw)).2) := by
      rw [addEntry, ← validateAddition_path qt haccepted]
      exact if_neg (not_not.2 haccepted)
    rw [hadd]
    cases hchanged : (editor.draft.add qt (editor.entryPath qt raw)).1 with
    | true => exact Or.inr ⟨rfl, rfl⟩
    | false =>
        rw [add_unchanged qt hchanged]
        exact Or.inl ⟨by rw [withDraft, publishFileExclusions_draft], by simp, Or.inr rfl⟩
  · have hadd : editor.addEntry qt raw = (editor.validateAddition qt raw, editor) := if_pos haccepted
    rw [hadd]
    exact Or.inl ⟨rfl, haccepted, Or.inl rfl⟩

theorem importAdd_spec (editor : ExclusionEditor) (raw : Text) :
    (editor.importAdd qt raw).1 ≠ .applied ∧ (editor.importAdd qt raw).2 = editor ∨
      (editor.importAdd qt raw).1 = .applied ∧
        (editor.validateAddition qt raw).outcome = .applied ∧
        (editor.importAdd qt raw).2 =
          editor.withDraft qt (editor.draft.add qt (editor.entryPath qt raw)).2 := by
  by_cases haccepted : (editor.validateAddition qt raw).outcome = .applied
  · rw [importAdd]
    dsimp only
    rw [if_neg (not_not.2 haccepted), validateAddition_path qt haccepted]
    split_ifs
    · exact Or.inr ⟨rfl, haccepted, rfl⟩
    · exact Or.inl ⟨by simp, rfl⟩
  · have hadd : editor.importAdd qt raw =
        ((editor.validateAddition qt raw).outcome, editor) := if_pos haccepted
    rw [hadd]
    exact Or.inl ⟨haccepted, rfl⟩

theorem importRemove_spec (editor : ExclusionEditor) (raw : Text) :
    (editor.importRemove qt raw).1 ≠ .applied ∧ (editor.importRemove qt raw).2 = editor ∨
      (editor.importRemove qt raw).1 = .applied ∧
        (editor.importRemove qt raw).2 =
          editor.withDraft qt (editor.draft.remove qt (editor.entryPath qt raw)).2 := by
  rw [importRemove]
  dsimp only
  split_ifs
  · exact Or.inl ⟨by simp, rfl⟩
  · exact Or.inl ⟨by simp, rfl⟩
  · exact Or.inr ⟨rfl, rfl⟩
  · exact Or.inl ⟨by simp, rfl⟩

theorem removeSelection_spec (editor : ExclusionEditor) (selection : List Selection) :
    (editor.removeSelection qt selection).1 = false ∧
        (editor.removeSelection qt selection).2 = editor ∨
      (editor.removeSelection qt selection).1 = true ∧
        (editor.removeSelection qt selection).2 =
          editor.withDraft qt (selection.foldl (editor.removeSelected qt) editor.draft) := by
  rw [removeSelection]
  split_ifs
  · exact Or.inl ⟨rfl, rfl⟩
  · exact Or.inr ⟨rfl, rfl⟩

theorem restoreSelection_spec (editor : ExclusionEditor) (selection : List Selection) :
    (editor.restoreSelection qt selection).1 = false ∧
        (editor.restoreSelection qt selection).2 = editor ∨
      (editor.restoreSelection qt selection).1 = true ∧
        ∃ validated, editor.validateSelection qt selection = some validated ∧
          (editor.restoreSelection qt selection).2 =
            editor.withDraft qt (validated.foldl (restoreSelected qt) editor.draft) := by
  rw [restoreSelection]
  split_ifs
  · exact Or.inl ⟨rfl, rfl⟩
  · cases editor.validateSelection qt selection with
    | none => exact Or.inl ⟨rfl, rfl⟩
    | some validated => exact Or.inr ⟨rfl, validated, rfl, rfl⟩

/-- A validated selection has the entered paths of the selected items. -/
theorem validateSelection_spec (editor : ExclusionEditor) {selection validated : List Selection}
    (hvalidated : editor.validateSelection qt selection = some validated) :
    validated = selection.map (fun item =>
        if item.persistence = none then ⟨editor.entryPath qt item.path, none⟩ else item) ∧
      ∀ item ∈ selection, item.persistence = none →
        (editor.validateAddition qt item.path).outcome = .applied := by
  induction selection generalizing validated with
  | nil =>
      rw [validateSelection, Option.some.injEq] at hvalidated
      exact ⟨hvalidated.symm, by simp⟩
  | cons item rest ih =>
      rw [validateSelection] at hvalidated
      cases hitem : item.persistence with
      | some persistence =>
          rw [hitem] at hvalidated
          obtain ⟨others, hothers, rfl⟩ := Option.map_eq_some_iff.1 hvalidated
          obtain ⟨heq, hall⟩ := ih hothers
          refine ⟨by simp [heq, hitem], fun other hother hnone => ?_⟩
          rcases List.mem_cons.1 hother with rfl | hother
          · simp [hitem] at hnone
          · exact hall other hother hnone
      | none =>
          simp only [hitem] at hvalidated
          split_ifs at hvalidated with hrejected
          rw [not_not] at hrejected
          obtain ⟨others, hothers, rfl⟩ := Option.map_eq_some_iff.1 hvalidated
          obtain ⟨heq, hall⟩ := ih hothers
          refine ⟨by simp [heq, hitem, validateAddition_path qt hrejected],
            fun other hother hnone => ?_⟩
          rcases List.mem_cons.1 hother with rfl | hother
          · exact hrejected
          · exact hall other hother hnone

/-! ## Selections -/

/-- A persistence switch is no entry of the draft. -/
theorem updatePersistence_entries (draft : ExclusionDraft) (item : PersistenceItem)
    (update : PersistenceFlagDraft → PersistenceFlagDraft) :
    (draft.updatePersistence item update).next = draft.next ∧
      (draft.updatePersistence item update).added = draft.added ∧
      (draft.updatePersistence item update).removed = draft.removed := by
  cases item <;> exact ⟨rfl, rfl, rfl⟩

/-- What holds of a draft because of its entries holds after a switch. -/
theorem updatePersistence_keeps {valid : Text → Prop} {draft : ExclusionDraft}
    (item : PersistenceItem) (update : PersistenceFlagDraft → PersistenceFlagDraft)
    (hdraft : draft.Consistent qt ∧ Resolved valid draft) :
    (draft.updatePersistence item update).Consistent qt ∧
      Resolved valid (draft.updatePersistence item update) ∧
      (draft.updatePersistence item update).effectiveNext qt = draft.effectiveNext qt := by
  obtain ⟨hnext, hadded, hremoved⟩ := updatePersistence_entries draft item update
  refine ⟨⟨?_, ?_, ?_, ?_⟩, ?_, ?_⟩
  · rw [hadded, hnext]
    exact hdraft.1.disjoint
  · rw [hremoved, hnext]
    exact hdraft.1.subset
  · rw [hadded]
    exact hdraft.1.addedDistinct
  · rw [hremoved]
    exact hdraft.1.removedDistinct
  · rw [Resolved, hnext, hadded, hremoved]
    exact hdraft.2
  · rw [ExclusionDraft.effectiveNext, hnext, hadded, hremoved, ExclusionDraft.effectiveNext]

/-- A selection is removed entry by entry. -/
theorem foldl_removeSelected {valid : Text → Prop} (editor : ExclusionEditor)
    (selection : List Selection)
    (hpaths : ∀ item ∈ selection, item.persistence = none → valid (editor.selectedPath qt item))
    {draft : ExclusionDraft} (hdraft : draft.Consistent qt ∧ Resolved valid draft) :
    (selection.foldl (editor.removeSelected qt) draft).Consistent qt ∧
      Resolved valid (selection.foldl (editor.removeSelected qt) draft) ∧
      foldedSet qt ((selection.foldl (editor.removeSelected qt) draft).effectiveNext qt) =
        foldedSet qt (draft.effectiveNext qt) \ { key | ∃ item ∈ selection,
          item.persistence = none ∧ (editor.selectedPath qt item).map qt.foldCase = key } := by
  induction selection generalizing draft with
  | nil => exact ⟨hdraft.1, hdraft.2, by simp⟩
  | cons item rest ih =>
      have hrest := fun other hother => hpaths other (List.mem_cons_of_mem item hother)
      rw [List.foldl_cons, removeSelected]
      cases hitem : item.persistence with
      | some persistence =>
          obtain ⟨hconsistent, hresolved, hsame⟩ :=
            updatePersistence_keeps qt persistence PersistenceFlagDraft.toggle hdraft
          obtain ⟨hrestConsistent, hrestResolved, hset⟩ := ih hrest ⟨hconsistent, hresolved⟩
          refine ⟨hrestConsistent, hrestResolved, ?_⟩
          rw [hset, hsame]
          simp [hitem]
      | none =>
          obtain ⟨hconsistent, -⟩ :=
            ExclusionDraft.remove_refines qt hdraft.1 (editor.selectedPath qt item)
          obtain ⟨hrestConsistent, hrestResolved, hset⟩ := ih hrest
            ⟨hconsistent, resolved_remove qt hdraft.2 (hpaths item List.mem_cons_self hitem)⟩
          refine ⟨hrestConsistent, hrestResolved, ?_⟩
          rw [hset, ExclusionDraft.effectiveNext_remove qt hdraft.1]
          ext key
          simp only [Set.mem_sdiff, Set.mem_singleton_iff, Set.mem_ofPred_eq, List.mem_cons,
            exists_eq_or_imp, hitem, true_and, not_or]
          rw [and_assoc, @eq_comm _ key]

theorem foldl_restoreSelected {valid : Text → Prop} (selection : List Selection)
    (hpaths : ∀ item ∈ selection, item.persistence = none → valid item.path)
    {draft : ExclusionDraft} (hdraft : draft.Consistent qt ∧ Resolved valid draft) :
    (selection.foldl (restoreSelected qt) draft).Consistent qt ∧
      Resolved valid (selection.foldl (restoreSelected qt) draft) ∧
      foldedSet qt ((selection.foldl (restoreSelected qt) draft).effectiveNext qt) =
        foldedSet qt (draft.effectiveNext qt) ∪ { key | ∃ item ∈ selection,
          item.persistence = none ∧ item.path.map qt.foldCase = key } := by
  induction selection generalizing draft with
  | nil => exact ⟨hdraft.1, hdraft.2, by simp⟩
  | cons item rest ih =>
      have hrest := fun other hother => hpaths other (List.mem_cons_of_mem item hother)
      rw [List.foldl_cons, restoreSelected]
      cases hitem : item.persistence with
      | some persistence =>
          obtain ⟨hconsistent, hresolved, hsame⟩ :=
            updatePersistence_keeps qt persistence PersistenceFlagDraft.enable hdraft
          obtain ⟨hrestConsistent, hrestResolved, hset⟩ := ih hrest ⟨hconsistent, hresolved⟩
          refine ⟨hrestConsistent, hrestResolved, ?_⟩
          rw [hset, hsame]
          simp [hitem]
      | none =>
          obtain ⟨hconsistent, -⟩ := ExclusionDraft.add_refines qt hdraft.1 item.path
          obtain ⟨hrestConsistent, hrestResolved, hset⟩ := ih hrest
            ⟨hconsistent, resolved_add qt hdraft.2 (hpaths item List.mem_cons_self hitem)⟩
          refine ⟨hrestConsistent, hrestResolved, ?_⟩
          rw [hset, ExclusionDraft.effectiveNext_add qt hdraft.1]
          ext key
          simp only [Set.mem_union, Set.mem_insert_iff, Set.mem_ofPred_eq, List.mem_cons,
            exists_eq_or_imp, hitem, true_and]
          rw [or_left_comm, or_assoc, @eq_comm _ key]

/-! ## Settled states -/

section Settled

variable {qt} {plain : Text → Prop} (hqt : Paths.Normalizes qt plain)
include hqt

theorem settled_addPath {editor : ExclusionEditor} (hsettled : editor.Settled qt plain) {raw : Text}
    (hraw : editor.Takes plain raw) :
    (editor.withDraft qt (editor.draft.add qt (editor.entryPath qt raw)).2).Settled qt plain := by
  obtain ⟨hconsistent, -⟩ :=
    ExclusionDraft.add_refines qt hsettled.consistent (editor.entryPath qt raw)
  exact settled_withDraft qt hconsistent
    (resolved_add qt hsettled.resolved (inForm_entryPath hqt hraw))

theorem settled_removePath {editor : ExclusionEditor} (hsettled : editor.Settled qt plain)
    {raw : Text} (hraw : editor.Takes plain raw) :
    (editor.withDraft qt (editor.draft.remove qt (editor.entryPath qt raw)).2).Settled qt
      plain := by
  obtain ⟨hconsistent, -⟩ :=
    ExclusionDraft.remove_refines qt hsettled.consistent (editor.entryPath qt raw)
  exact settled_withDraft qt hconsistent
    (resolved_remove qt hsettled.resolved (inForm_entryPath hqt hraw))

/-- A sorted list of resolved paths is resolved. -/
theorem inForm_sortUnique {editor : ExclusionEditor} {paths : List Text}
    (htaken : ∀ path ∈ paths, editor.Takes plain path) {path : Text}
    (hmem : path ∈ qt.sortUnique (paths.map (editor.absoluteFilePath qt))) :
    editor.InForm qt plain path := by
  obtain ⟨source, hsource, rfl⟩ := List.mem_map.1 (SortUnique.sortUniqueBy_subset _ _ hmem)
  exact inForm_absoluteFilePath hqt (htaken source hsource)

omit hqt in
theorem foldedSet_normalized (editor : ExclusionEditor) (paths : List Text) :
    foldedSet qt (qt.sortUnique (paths.map (editor.absoluteFilePath qt))) =
      editor.identities qt paths := by
  rw [foldedSet_sortUnique]
  ext key
  simp [mem_foldedSet, identities, identity]

omit hqt in
theorem normalizeFileExclusions_registry {editor : ExclusionEditor}
    (hkind : editor.kind = .registry) : editor.normalizeFileExclusions qt = editor := by
  rw [normalizeFileExclusions, hkind]

omit hqt in
theorem normalizeFileExclusions_file {editor : ExclusionEditor} (hkind : editor.kind = .file) :
    editor.normalizeFileExclusions qt =
      { editor with
        draft := { editor.draft with
          current := qt.sortUnique (editor.draft.current.map (editor.absoluteFilePath qt))
          next := qt.sortUnique (editor.draft.next.map (editor.absoluteFilePath qt))
          added := qt.sortUnique (editor.draft.added.map (editor.absoluteFilePath qt))
          removed := qt.sortUnique (editor.draft.removed.map (editor.absoluteFilePath qt)) } } := by
  rw [normalizeFileExclusions, hkind]

/-- A draft whose entries are resolved anew stays consistent if no addition
becomes an entry of the baseline. -/
theorem settled_normalizeFileExclusions {editor : ExclusionEditor}
    (hdraft : editor.draft.Consistent qt)
    (htaken : Resolved (editor.Takes plain) editor.draft)
    (hfits : ∀ added ∈ editor.draft.added, ∀ next ∈ editor.draft.next,
      editor.identity qt added ≠ editor.identity qt next) :
    (editor.normalizeFileExclusions qt).Settled qt plain := by
  cases hkind : editor.kind with
  | registry =>
      rw [normalizeFileExclusions_registry hkind]
      exact ⟨hdraft, fun path _ => inForm_registry hkind path⟩
  | file =>
      rw [normalizeFileExclusions_file hkind]
      refine ⟨⟨?_, ?_, distinctTexts_sortUnique qt _, distinctTexts_sortUnique qt _⟩, ?_⟩
      · rw [foldedSet_normalized, foldedSet_normalized, Set.disjoint_left]
        rintro key ⟨added, hadded, rfl⟩ ⟨next, hnext, heq⟩
        exact hfits added hadded next hnext heq.symm
      · rw [foldedSet_normalized, foldedSet_normalized]
        rintro key ⟨removed, hremoved, rfl⟩
        obtain ⟨next, hnext, heq⟩ := hdraft.subset ⟨removed, hremoved, rfl⟩
        exact ⟨next, hnext,
          identity_congr hqt (htaken next (Or.inl hnext)) heq⟩
      · rintro path (hnext | hadded | hremoved)
        · exact inForm_sortUnique hqt (fun next h => htaken next (Or.inl h)) hnext
        · exact inForm_sortUnique hqt (fun added h => htaken added (Or.inr (Or.inl h))) hadded
        · exact inForm_sortUnique hqt (fun removed h => htaken removed (Or.inr (Or.inr h)))
            hremoved

theorem settled_setDriveLetter {editor : ExclusionEditor} (hsettled : editor.Settled qt plain)
    {dl : Text} (hfits : editor.LetterFits qt (.setDriveLetter dl)) :
    (editor.setDriveLetter qt dl).Settled qt plain :=
  (settled_publishFileExclusions qt).2
    (settled_normalizeFileExclusions hqt hsettled.consistent
      (fun path hmem => (hsettled.resolved path hmem).2) hfits)

omit hqt in
/-- A draft without edits is consistent. -/
theorem consistent_of_no_edits {draft : ExclusionDraft} (hadded : draft.added = [])
    (hremoved : draft.removed = []) : draft.Consistent qt := by
  have hnil : foldedSet qt [] = ∅ := by
    ext key
    simp [mem_foldedSet]
  refine ⟨?_, ?_, ?_, ?_⟩
  · rw [hadded, hnil]
    exact Set.empty_disjoint _
  · rw [hremoved, hnil]
    exact Set.empty_subset _
  · rw [hadded]
    exact List.nodup_nil
  · rw [hremoved]
    exact List.nodup_nil

theorem settled_setBaseline {editor : ExclusionEditor} (current : List Text) {next : List Text}
    (htaken : ∀ path ∈ next, editor.Takes plain path) :
    (editor.setBaseline qt current next).Settled qt plain := by
  cases hkind : editor.kind with
  | registry =>
      rw [setBaseline, hkind]
      exact ⟨consistent_of_no_edits rfl rfl, fun path _ => inForm_registry rfl path⟩
  | file =>
      rw [setBaseline, hkind]
      refine (settled_publishFileExclusions qt).2
        (settled_normalizeFileExclusions hqt (consistent_of_no_edits rfl rfl) ?_ (by simp))
      rintro path (hnext | hadded | hremoved)
      · exact fun _ => htaken path hnext hkind
      · cases hadded
      · cases hremoved

omit hqt in
/-- Removals that are taken back leave a settled state settled. -/
theorem settled_refreshFileStagingConstraints {editor : ExclusionEditor}
    (hsettled : editor.Settled qt plain) :
    (editor.refreshFileStagingConstraints qt).Settled qt plain := by
  rw [refreshFileStagingConstraints]
  split
  · obtain ⟨⟨hdisjoint, hsubset, hadded, hremoved⟩, hresolved⟩ := hsettled
    refine ⟨⟨hdisjoint, ?_, hadded, distinctTexts_removeExclusion qt _ hremoved⟩, ?_⟩
    · rw [foldedSet_removeExclusion]
      exact fun _ hkey => hsubset hkey.1
    · exact fun path hmem =>
        hresolved path (hmem.imp_right (Or.imp_right fun h => (List.mem_filter.1 h).1))
  · exact hsettled

omit hqt in
theorem settled_resetPending {editor : ExclusionEditor} (hsettled : editor.Settled qt plain) :
    (editor.resetPending qt).Settled qt plain :=
  settled_withDraft qt (consistent_of_no_edits rfl rfl) fun path hmem =>
    hsettled.resolved path (hmem.imp_right (Or.imp (fun h => by simp [ExclusionDraft.reset] at h)
      fun h => by simp [ExclusionDraft.reset] at h))

/-- The fold of a selection over the draft, as in `removeSelection`. -/
theorem removeSelection_draft {editor : ExclusionEditor} (hsettled : editor.Settled qt plain)
    {selection : List Selection}
    (htaken : ∀ item ∈ selection, item.persistence = none → editor.Takes plain item.path) :
    (editor.withDraft qt (selection.foldl (editor.removeSelected qt) editor.draft)).Settled qt
        plain ∧
      (editor.withDraft qt (selection.foldl (editor.removeSelected qt) editor.draft)).effective qt =
        editor.effective qt \ { key | ∃ item ∈ selection, item.persistence = none ∧
          editor.identity qt (editor.selectedPath qt item) = key } := by
  have hform : ∀ item ∈ selection, item.persistence = none →
      editor.InForm qt plain (editor.selectedPath qt item) :=
    fun item hitem hnone => inForm_selectedPath hqt (htaken item hitem hnone)
  obtain ⟨hconsistent, hresolved, hset⟩ := foldl_removeSelected qt editor selection hform
    ⟨hsettled.consistent, hsettled.resolved⟩
  refine ⟨settled_withDraft qt hconsistent hresolved, ?_⟩
  rw [effective_withDraft qt hconsistent hresolved, hset, effective_eq qt hsettled]
  congr 1
  ext key
  refine exists_congr fun item => and_congr_right fun hitem => and_congr_right fun hnone => ?_
  rw [identity, (hform item hitem hnone).1]

theorem restoreSelection_draft {editor : ExclusionEditor} (hsettled : editor.Settled qt plain)
    {selection validated : List Selection}
    (htaken : ∀ item ∈ selection, item.persistence = none → editor.Takes plain item.path)
    (hvalidated : editor.validateSelection qt selection = some validated) :
    (editor.withDraft qt (validated.foldl (restoreSelected qt) editor.draft)).Settled qt plain ∧
      (editor.withDraft qt (validated.foldl (restoreSelected qt) editor.draft)).effective qt =
        editor.effective qt ∪ { key | ∃ item ∈ selection, item.persistence = none ∧
          editor.identity qt (editor.entryPath qt item.path) = key } := by
  obtain ⟨rfl, -⟩ := validateSelection_spec qt editor hvalidated
  have hform : ∀ item ∈ selection, item.persistence = none →
      editor.InForm qt plain (editor.entryPath qt item.path) :=
    fun item hitem hnone => inForm_entryPath hqt (htaken item hitem hnone)
  have hpaths : ∀ item ∈ selection.map (fun item : Selection =>
      if item.persistence = none then (⟨editor.entryPath qt item.path, none⟩ : Selection) else item),
      item.persistence = none → editor.InForm qt plain item.path := by
    intro item hmem hnone
    obtain ⟨source, hsource, rfl⟩ := List.mem_map.1 hmem
    split_ifs at hnone ⊢ with hentry
    · exact hform source hsource hentry
    · exact absurd hnone hentry
  obtain ⟨hconsistent, hresolved, hset⟩ := foldl_restoreSelected qt _ hpaths
    ⟨hsettled.consistent, hsettled.resolved⟩
  refine ⟨settled_withDraft qt hconsistent hresolved, ?_⟩
  rw [effective_withDraft qt hconsistent hresolved, hset, effective_eq qt hsettled]
  congr 1
  ext key
  constructor
  · rintro ⟨item, hmem, hnone, rfl⟩
    obtain ⟨source, hsource, rfl⟩ := List.mem_map.1 hmem
    split_ifs at hnone ⊢ with hentry
    · exact ⟨source, hsource, hentry, by rw [identity, (hform source hsource hentry).1]⟩
    · exact absurd hnone hentry
  · rintro ⟨item, hmem, hnone, rfl⟩
    exact ⟨⟨editor.entryPath qt item.path, none⟩, List.mem_map.2 ⟨item, hmem, if_pos hnone⟩, rfl,
      by rw [identity, (hform item hmem hnone).1]⟩

theorem settled_step {editor : ExclusionEditor} (hsettled : editor.Settled qt plain)
    (action : Action) (hfits : editor.LetterFits qt action) (htaken : editor.Handles plain action) :
    (editor.step qt action).Settled qt plain := by
  cases action with
  | setBaseline current next => exact settled_setBaseline hqt current htaken
  | setDriveLetter dl => exact settled_setDriveLetter hqt hsettled hfits
  | addEntry raw =>
      show (editor.addEntry qt raw).2.Settled qt plain
      rcases addEntry_spec qt editor raw with ⟨-, -, heq | heq⟩ | ⟨-, heq⟩ <;> rw [heq]
      · exact hsettled
      · exact settled_withDraft qt hsettled.consistent hsettled.resolved
      · exact settled_addPath hqt hsettled htaken
  | importAdd raw =>
      show (editor.importAdd qt raw).2.Settled qt plain
      rcases importAdd_spec qt editor raw with ⟨-, heq⟩ | ⟨-, -, heq⟩ <;> rw [heq]
      · exact hsettled
      · exact settled_addPath hqt hsettled htaken
  | importRemove raw =>
      show (editor.importRemove qt raw).2.Settled qt plain
      rcases importRemove_spec qt editor raw with ⟨-, heq⟩ | ⟨-, heq⟩ <;> rw [heq]
      · exact hsettled
      · exact settled_removePath hqt hsettled htaken
  | removeSelection selection =>
      show (editor.removeSelection qt selection).2.Settled qt plain
      rcases removeSelection_spec qt editor selection with ⟨-, heq⟩ | ⟨-, heq⟩ <;> rw [heq]
      · exact hsettled
      · exact (removeSelection_draft hqt hsettled htaken).1
  | restoreSelection selection =>
      show (editor.restoreSelection qt selection).2.Settled qt plain
      rcases restoreSelection_spec qt editor selection with
        ⟨-, heq⟩ | ⟨-, validated, hvalidated, heq⟩ <;> rw [heq]
      · exact hsettled
      · exact (restoreSelection_draft hqt hsettled htaken hvalidated).1
  | resetPending => exact settled_resetPending hsettled
  | setSystemDriveLetter dl => exact ⟨hsettled.consistent, hsettled.resolved⟩
  | setReadOnly value => exact ⟨hsettled.consistent, hsettled.resolved⟩
  | enablePersistence item =>
      show (editor.enablePersistence item).Settled qt plain
      rw [enablePersistence]
      split
      · exact hsettled
      · obtain ⟨hconsistent, hresolved, -⟩ := updatePersistence_keeps qt item
          PersistenceFlagDraft.enable ⟨hsettled.consistent, hsettled.resolved⟩
        exact ⟨hconsistent, hresolved⟩
  | setFileStagingDataProbe probe =>
      exact settled_refreshFileStagingConstraints ⟨hsettled.consistent, hsettled.resolved⟩
  | setStagedEntries entries => exact ⟨hsettled.consistent, hsettled.resolved⟩

theorem editsAsAsked_of_settled {editor : ExclusionEditor} (hsettled : editor.Settled qt plain) :
    editor.EditsAsAsked qt plain := by
  constructor
  case addEntry =>
    intro raw hraw happlied
    rcases addEntry_spec qt editor raw with ⟨-, hrejected, -⟩ | ⟨-, heq⟩
    · exact absurd happlied hrejected
    · rw [heq, effective_withDraft_add qt hsettled (inForm_entryPath hqt hraw)]
  case addEntry_rejected =>
    intro raw hrejected
    rcases addEntry_spec qt editor raw with ⟨hsame, -, -⟩ | ⟨happlied, -⟩
    · exact hsame
    · exact absurd happlied hrejected
  case importAdd =>
    intro raw hraw happlied
    rcases importAdd_spec qt editor raw with ⟨hrejected, -⟩ | ⟨-, -, heq⟩
    · exact absurd happlied hrejected
    · rw [heq, effective_withDraft_add qt hsettled (inForm_entryPath hqt hraw)]
  case importAdd_rejected =>
    intro raw hrejected
    rcases importAdd_spec qt editor raw with ⟨-, heq⟩ | ⟨happlied, -, -⟩
    · rw [heq]
    · exact absurd happlied hrejected
  case importRemove =>
    intro raw hraw happlied
    rcases importRemove_spec qt editor raw with ⟨hrejected, -⟩ | ⟨-, heq⟩
    · exact absurd happlied hrejected
    · rw [heq, effective_withDraft_remove qt hsettled (inForm_entryPath hqt hraw)]
  case importRemove_rejected =>
    intro raw hrejected
    rcases importRemove_spec qt editor raw with ⟨-, heq⟩ | ⟨happlied, -⟩
    · rw [heq]
    · exact absurd happlied hrejected
  case removeSelection =>
    intro selection htaken happlied
    rcases removeSelection_spec qt editor selection with ⟨hrejected, -⟩ | ⟨-, heq⟩
    · exact absurd (happlied.symm.trans hrejected) (by decide)
    · rw [heq, (removeSelection_draft hqt hsettled htaken).2]
  case removeSelection_rejected =>
    intro selection hrejected
    rcases removeSelection_spec qt editor selection with ⟨-, heq⟩ | ⟨happlied, -⟩
    · rw [heq]
    · exact absurd (happlied.symm.trans hrejected) (by decide)
  case restoreSelection =>
    intro selection htaken happlied
    rcases restoreSelection_spec qt editor selection with
      ⟨hrejected, -⟩ | ⟨-, validated, hvalidated, heq⟩
    · exact absurd (happlied.symm.trans hrejected) (by decide)
    · rw [heq, (restoreSelection_draft hqt hsettled htaken hvalidated).2]
  case restoreSelection_rejected =>
    intro selection hrejected
    rcases restoreSelection_spec qt editor selection with ⟨-, heq⟩ | ⟨happlied, -⟩
    · rw [heq]
    · exact absurd (happlied.symm.trans hrejected) (by decide)

end Settled

/-! ## The main result -/

/-- An editor as it is constructed: without a baseline and without a drive letter. -/
def fresh (kind : ExclusionKind) (conflicts : Option FileStagingConflictPolicy) : ExclusionEditor :=
  { kind := kind, conflicts := conflicts }

theorem settled_fresh (plain : Text → Prop) (kind : ExclusionKind)
    (conflicts : Option FileStagingConflictPolicy) :
    (fresh kind conflicts).Settled qt plain :=
  ⟨consistent_of_no_edits rfl rfl, fun path hmem => by simp [fresh] at hmem⟩

/-- In every state of a run whose drive letters fit, the pending edits keep
apart from each other and from the baseline, and each edit has the effect that
is asked of it; the files that are named are of a class on which paths have a
normal form. -/
theorem editing_keeps_sets {plain : Text → Prop} (hqt : Paths.Normalizes qt plain)
    (kind : ExclusionKind) (conflicts : Option FileStagingConflictPolicy) {actions : List Action}
    (hfits : GuardedRun.Guarded (step qt)
      (fun editor action => editor.LetterFits qt action ∧ editor.Handles plain action)
      (fresh kind conflicts) actions)
    {front : List Action} (hfront : front <+: actions) :
    (front.foldl (step qt) (fresh kind conflicts)).KeepsSets qt ∧
      (front.foldl (step qt) (fresh kind conflicts)).EditsAsAsked qt plain := by
  have hstep : ∀ editor action, Settled qt plain editor →
      LetterFits qt editor action ∧ Handles plain editor action →
        Settled qt plain (step qt editor action) :=
    fun editor action hsettled hguard => settled_step hqt hsettled action hguard.1 hguard.2
  have hsettled : Settled qt plain (front.foldl (step qt) (fresh kind conflicts)) :=
    GuardedRun.preserved_of_prefix hstep (settled_fresh qt plain kind conflicts) hfits hfront
  exact ⟨keepsSets_of_settled qt hsettled, editsAsAsked_of_settled hqt hsettled⟩

/-- A volume whose letter is set first, and edits in either form of a path. -/
def lettersFirst : List Action :=
  [.setDriveLetter "Z:".toList, .setBaseline [] ["\\Data".toList],
    .importAdd "Z:\\New".toList, .importRemove "\\data".toList]

theorem editing_keeps_sets_lettersFirst :
    (lettersFirst.foldl (step Qt.ascii) (fresh .file none)).KeepsSets Qt.ascii ∧
      (lettersFirst.foldl (step Qt.ascii) (fresh .file none)).EditsAsAsked Qt.ascii
        fun _ => True := by
  have hfits : GuardedRun.Guarded (step Qt.ascii)
      (fun editor action => editor.LetterFits Qt.ascii action ∧
        editor.Handles (fun _ => True) action) (fresh .file none) lettersFirst := by
    rw [lettersFirst]
    simp only [GuardedRun.Guarded, LetterFits, Handles, Takes, implies_true, and_true]
    exact fun _ hmem => absurd hmem List.not_mem_nil
  exact editing_keeps_sets Qt.ascii Paths.ascii_normalizes .file none hfits List.prefix_rfl

/-- An addition that names the drive, made before the drive letter is known. -/
def letterLast : List Action :=
  [.setBaseline [] ["\\Data".toList], .importAdd "Z:\\Data".toList, .setDriveLetter "Z:".toList]

/-- Once the letter is known the addition is also an entry of the baseline, and
removing it, with success, leaves the entry in the effective set. -/
theorem editing_letterLast :
    ¬(letterLast.foldl (step Qt.ascii) (fresh .file none)).KeepsSets Qt.ascii ∧
      ¬(letterLast.foldl (step Qt.ascii) (fresh .file none)).EditsAsAsked Qt.ascii
        fun _ => True := by
  have hadded : (letterLast.foldl (step Qt.ascii) (fresh .file none)).draft.added =
      ["Z:\\Data".toList] := by decide +kernel
  have hnext : (letterLast.foldl (step Qt.ascii) (fresh .file none)).draft.next =
      ["Z:\\Data".toList] := by decide +kernel
  constructor
  · intro hkeeps
    refine Set.disjoint_left.1 hkeeps.addedNotInNext ⟨"Z:\\Data".toList, ?_, rfl⟩
      ⟨"Z:\\Data".toList, ?_, rfl⟩
    · rw [hadded]
      exact List.mem_singleton_self _
    · rw [hnext]
      exact List.mem_singleton_self _
  · intro hasked
    have heffective := hasked.importRemove "Z:\\Data".toList (fun _ => trivial) (by decide +kernel)
    have hstays : ((letterLast.foldl (step Qt.ascii) (fresh .file none)).importRemove Qt.ascii
        "Z:\\Data".toList).2.draft.effectiveNext Qt.ascii = ["Z:\\Data".toList] := by
      decide +kernel
    have hin : (letterLast.foldl (step Qt.ascii) (fresh .file none)).identity Qt.ascii
        ((letterLast.foldl (step Qt.ascii) (fresh .file none)).entryPath Qt.ascii
          "Z:\\Data".toList) ∈
        ((letterLast.foldl (step Qt.ascii) (fresh .file none)).importRemove Qt.ascii
          "Z:\\Data".toList).2.effective Qt.ascii := by
      refine ⟨"Z:\\Data".toList, ?_, by decide +kernel⟩
      rw [hstays]
      exact List.mem_singleton_self _
    rw [heffective] at hin
    exact hin.2 rfl

end ExclusionEditor

end UwfManager
