import UwfManager.Staging.StagingSession

/-!
# Staged paths and exclusions

An exclusion is checked against the staged paths when it is added, and a path
against the exclusions when it is staged.  Both checks compare paths without
regard to case, and each policy may be behind the draft.  The file proves that
no interleaving makes a staged path overlap an exclusion of its volume.
-/

namespace UwfManager

variable {S : Type*} (qt : Qt)

/-! ## Comparison without regard to case -/

namespace Paths

/-- What is relied on about case: texts of the class that differ in case only stay so when
separators are converted, and a letter is no separator and no white space. -/
structure IgnoresCase (plain : Text → Prop) : Prop where
  native : ∀ first second : Text, plain first → first.map qt.foldCase = second.map qt.foldCase →
    (Paths.native qt first).map qt.foldCase = (Paths.native qt second).map qt.foldCase
  nativeNil : Paths.native qt [] = []
  separator : ∀ c, isSeparator (qt.foldCase c) = isSeparator c
  space : ∀ c d, qt.foldCase c = qt.foldCase d → qt.isSpace c = qt.isSpace d

theorem ascii_ignoresCase : IgnoresCase Qt.ascii fun _ => True where
  native first second _ hcase := by
    have hnative : ∀ text, Paths.native Qt.ascii text = normalize Qt.ascii text := by
      intro text
      cases text with
      | nil => rfl
      | cons c rest => rfl
    rw [hnative, hnative]
    exact ascii_normalizes.respectsCase first second trivial hcase
  nativeNil := rfl
  separator c := by
    rw [Bool.eq_iff_iff]
    simp only [isSeparator, Bool.or_eq_true, beq_iff_eq]
    exact or_congr (lowerAscii_eq_iff (by decide) (by decide))
      (lowerAscii_eq_iff (by decide) (by decide))
  space c d hcase := by
    have hspace : ∀ w, ¬('a' ≤ w ∧ w ≤ 'z') → ¬('A' ≤ w ∧ w ≤ 'Z') → (c = w ↔ d = w) := by
      intro w hlower hupper
      have hfold : ∀ e, lowerAscii e = w ↔ e = w := fun e => lowerAscii_eq_iff hlower hupper
      exact ⟨fun h => (hfold d).1 (hcase.symm.trans ((hfold c).2 h)),
        fun h => (hfold c).1 (hcase.trans ((hfold d).2 h))⟩
    rw [Bool.eq_iff_iff]
    simp only [Qt.ascii, isAsciiWhitespace, Bool.or_eq_true, beq_iff_eq]
    rw [hspace ' ' (by decide) (by decide), hspace '\t' (by decide) (by decide),
      hspace '\n' (by decide) (by decide), hspace '\r' (by decide) (by decide),
      hspace '\x0c' (by decide) (by decide), hspace '\x0b' (by decide) (by decide)]

variable {qt}

theorem map_dropWhile_congr {p : Char → Bool} (hp : ∀ c d, qt.foldCase c = qt.foldCase d → p c = p d)
    {first second : Text} (hcase : first.map qt.foldCase = second.map qt.foldCase) :
    (first.dropWhile p).map qt.foldCase = (second.dropWhile p).map qt.foldCase := by
  induction first generalizing second with
  | nil =>
      rw [List.map_nil, eq_comm, List.map_eq_nil_iff] at hcase
      rw [hcase]
  | cons c first ih =>
      cases second with
      | nil => simp at hcase
      | cons d second =>
          have hsame := hcase
          rw [List.map_cons, List.map_cons, List.cons.injEq] at hcase
          rw [List.dropWhile_cons, List.dropWhile_cons, hp c d hcase.1]
          split_ifs
          · exact ih hcase.2
          · exact hsame

theorem map_rdropWhile_congr {p : Char → Bool}
    (hp : ∀ c d, qt.foldCase c = qt.foldCase d → p c = p d) {first second : Text}
    (hcase : first.map qt.foldCase = second.map qt.foldCase) :
    (first.rdropWhile p).map qt.foldCase = (second.rdropWhile p).map qt.foldCase := by
  have hreverse : first.reverse.map qt.foldCase = second.reverse.map qt.foldCase := by
    rw [List.map_reverse, List.map_reverse, hcase]
  rw [List.rdropWhile, List.rdropWhile, List.map_reverse, List.map_reverse,
    map_dropWhile_congr hp hreverse]

section IgnoresCase

variable {plain : Text → Prop} (hcases : IgnoresCase qt plain)
include hcases

theorem trimmed_congr {first second : Text}
    (hcase : first.map qt.foldCase = second.map qt.foldCase) :
    (qt.trimmed first).map qt.foldCase = (qt.trimmed second).map qt.foldCase :=
  map_rdropWhile_congr hcases.space (map_dropWhile_congr hcases.space hcase)

theorem isSeparator_congr (c d : Char) (hcase : qt.foldCase c = qt.foldCase d) :
    isSeparator c = isSeparator d := by
  rw [← hcases.separator c, hcase, hcases.separator d]

theorem contains_congr {parent parent' path path' : Text} (hplain : plain parent)
    (hplainPath : plain path) (hparent : parent.map qt.foldCase = parent'.map qt.foldCase)
    (hpath : path.map qt.foldCase = path'.map qt.foldCase) :
    contains qt parent path = contains qt parent' path' := by
  have hroot := map_rdropWhile_congr (isSeparator_congr hcases) (hcases.native _ _ hplain hparent)
  have htarget := hcases.native _ _ hplainPath hpath
  have hrootLength : ((native qt parent).rdropWhile isSeparator).length =
      ((native qt parent').rdropWhile isSeparator).length := by
    rw [← List.length_map (f := qt.foldCase), hroot, List.length_map]
  have htargetLength : (native qt path).length = (native qt path').length := by
    rw [← List.length_map (f := qt.foldCase), htarget, List.length_map]
  have hnext : ((native qt path).drop ((native qt parent).rdropWhile isSeparator).length).head?.any
      isSeparator = ((native qt path').drop
        ((native qt parent').rdropWhile isSeparator).length).head?.any isSeparator := by
    have hdrop : ((native qt path).drop
        ((native qt parent).rdropWhile isSeparator).length).map qt.foldCase =
        ((native qt path').drop
          ((native qt parent').rdropWhile isSeparator).length).map qt.foldCase := by
      rw [List.map_drop, List.map_drop, htarget, hrootLength]
    revert hdrop
    generalize (native qt path).drop ((native qt parent).rdropWhile isSeparator).length = first
    generalize (native qt path').drop ((native qt parent').rdropWhile isSeparator).length = second
    intro hdrop
    cases first with
    | nil =>
        rw [List.map_nil, eq_comm, List.map_eq_nil_iff] at hdrop
        rw [hdrop]
    | cons c first =>
        cases second with
        | nil => simp at hdrop
        | cons d second =>
            rw [List.map_cons, List.map_cons, List.cons.injEq] at hdrop
            simpa using isSeparator_congr hcases c d hdrop.1
  have hempty : ((native qt parent).rdropWhile isSeparator).isEmpty =
      ((native qt parent').rdropWhile isSeparator).isEmpty := by
    rw [Bool.eq_iff_iff, List.isEmpty_iff, List.isEmpty_iff, ← List.length_eq_zero_iff, hrootLength,
      List.length_eq_zero_iff]
  rw [hrootLength] at hnext
  simp only [contains, Qt.sameText, Qt.startsWith, hroot, htarget, hrootLength, htargetLength,
    hnext, hempty]
  rfl

theorem overlap_congr {left left' right right' : Text} (hplain : plain left)
    (hplainRight : plain right) (hleft : left.map qt.foldCase = left'.map qt.foldCase)
    (hright : right.map qt.foldCase = right'.map qt.foldCase) :
    overlap qt left right = overlap qt left' right' := by
  rw [overlap, overlap, contains_congr hcases hplain hplainRight hleft hright,
    contains_congr hcases hplainRight hplain hright hleft]

/-- The empty path overlaps nothing. -/
theorem overlap_nil (path : Text) : overlap qt path [] = false := by
  have hroot : ([] : Text).rdropWhile isSeparator = [] := rfl
  simp only [overlap, contains, hcases.nativeNil, hroot, List.isEmpty_nil, if_true, Bool.or_false]
  split_ifs with hempty hsame
  · rfl
  · rw [Qt.sameText_iff, List.map_nil, eq_comm, List.map_eq_nil_iff] at hsame
    exact absurd (by rw [hsame]; rfl) hempty
  · simp

end IgnoresCase

end Paths

/-! ## The policy -/

namespace FileStagingConflictPolicy

variable {qt}

/-- Every path that is not empty is kept in a form that differs in case only. -/
theorem exists_mem_normalizeUnique {paths : List Text} {path : Text} (hmem : path ∈ paths)
    (hpath : normalizedPath qt path ≠ []) :
    ∃ kept ∈ normalizeUnique qt paths,
      kept.map qt.foldCase = (normalizedPath qt path).map qt.foldCase := by
  refine SortUnique.exists_mem_sortUniqueBy (fun text : Text => text.map qt.foldCase)
    (List.mem_filter.2 ⟨List.mem_map.2 ⟨path, hmem, rfl⟩, ?_⟩)
  simpa using hpath

theorem overlap_of_firstConflict {candidate : Text} {existing : List Text}
    (hnone : firstConflict qt candidate existing = none) {path : Text} (hmem : path ∈ existing) :
    Paths.overlap qt (normalizedPath qt candidate) path = false := by
  rw [firstConflict, List.find?_eq_none] at hnone
  simpa using hnone path hmem

variable {plain : Text → Prop} (hqt : Paths.Normalizes qt plain)
  (hcases : Paths.IgnoresCase qt plain)
include hqt

theorem plain_normalizedPath {path : Text} (hpath : plain path) :
    plain (normalizedPath qt path) :=
  hqt.normal _ (hqt.trimmed path hpath)

include hcases

/-- A candidate overlaps no path of which the policy keeps a form. -/
theorem overlap_of_kept {candidate path : Text} {existing : List Text}
    (hcandidate : plain candidate) (hplain : plain path)
    (hnone : firstConflict qt candidate existing = none)
    (hkept : normalizedPath qt path ≠ [] → ∃ kept ∈ existing,
      kept.map qt.foldCase = (normalizedPath qt path).map qt.foldCase) :
    Paths.overlap qt (normalizedPath qt candidate) (normalizedPath qt path) = false := by
  by_cases hpath : normalizedPath qt path = []
  · rw [hpath]
    exact Paths.overlap_nil hcases _
  · obtain ⟨kept, hmem, hcase⟩ := hkept hpath
    rw [Paths.overlap_congr hcases (plain_normalizedPath hqt hcandidate)
      (plain_normalizedPath hqt hplain) rfl hcase.symm]
    exact overlap_of_firstConflict hnone hmem

theorem normalizedPath_congr {first second : Text} (hfirst : plain first)
    (hcase : first.map qt.foldCase = second.map qt.foldCase) :
    (normalizedPath qt first).map qt.foldCase = (normalizedPath qt second).map qt.foldCase :=
  hqt.respectsCase _ _ (hqt.trimmed first hfirst) (Paths.trimmed_congr hcases hcase)

end FileStagingConflictPolicy

/-! ## What an exclusion edit adds -/

namespace ExclusionDraft

/-- The entries of the later draft are entries of the earlier one or accepted
ones, up to case. -/
def GrowsBy (accepted : Text → Prop) (before after : ExclusionDraft) : Prop :=
  after.current = before.current ∧ ∀ entry ∈ after.effectiveNext qt,
    entry ∈ before.effectiveNext qt ∨
      ∃ path, accepted path ∧ entry.map qt.foldCase = path.map qt.foldCase

variable {qt} {accepted : Text → Prop}

theorem GrowsBy.refl (draft : ExclusionDraft) : GrowsBy qt accepted draft draft :=
  ⟨rfl, fun _ hentry => Or.inl hentry⟩

theorem GrowsBy.trans {first second third : ExclusionDraft} (hfirst : GrowsBy qt accepted first second)
    (hsecond : GrowsBy qt accepted second third) : GrowsBy qt accepted first third := by
  refine ⟨hsecond.1.trans hfirst.1, fun entry hentry => ?_⟩
  rcases hsecond.2 entry hentry with hmem | haccepted
  · exact hfirst.2 entry hmem
  · exact Or.inr haccepted

/-- Taking back a removal brings back entries that equal the path up to case. -/
theorem growsBy_add (draft : ExclusionDraft) {path : Text} (haccepted : accepted path) :
    GrowsBy qt accepted draft (draft.add qt path).2 := by
  rw [add]
  split_ifs with hremoved hnew
  · refine ⟨rfl, fun entry hentry => ?_⟩
    rcases List.mem_append.1 hentry with hnext | hadded
    · obtain ⟨hmem, hfree⟩ := List.mem_filter.1 hnext
      by_cases hwas : containsExclusion qt draft.removed entry = true
      · refine Or.inr ⟨path, haccepted, ?_⟩
        obtain ⟨other, hother, hsame⟩ := List.any_eq_true.1 hwas
        rw [Bool.not_eq_true', containsExclusion, List.any_eq_false] at hfree
        by_contra hdiffers
        refine hfree other (List.mem_filter.2 ⟨hother, ?_⟩) hsame
        rw [Bool.not_eq_true', ← Bool.not_eq_true, qt.sameText_iff]
        exact fun hpath => hdiffers (((qt.sameText_iff).1 hsame).symm.trans hpath)
      · refine Or.inl (List.mem_append_left _ (List.mem_filter.2 ⟨hmem, ?_⟩))
        simpa using hwas
    · exact Or.inl (List.mem_append_right _ hadded)
  · refine ⟨rfl, fun entry hentry => ?_⟩
    rcases List.mem_append.1 hentry with hnext | hadded
    · exact Or.inl (List.mem_append_left _ hnext)
    · rcases List.mem_append.1 hadded with hold | hnew
      · exact Or.inl (List.mem_append_right _ hold)
      · exact Or.inr ⟨path, haccepted, by rw [List.mem_singleton.1 hnew]⟩
  · exact GrowsBy.refl draft

theorem growsBy_remove (draft : ExclusionDraft) (path : Text) :
    GrowsBy qt accepted draft (draft.remove qt path).2 := by
  rw [remove]
  split_ifs with hadded hpresent
  · refine ⟨rfl, fun entry hentry => Or.inl ?_⟩
    rcases List.mem_append.1 hentry with hnext | hkept
    · exact List.mem_append_left _ hnext
    · exact List.mem_append_right _ (List.mem_filter.1 hkept).1
  · refine ⟨rfl, fun entry hentry => Or.inl ?_⟩
    rcases List.mem_append.1 hentry with hnext | hkept
    · obtain ⟨hmem, hfree⟩ := List.mem_filter.1 hnext
      refine List.mem_append_left _ (List.mem_filter.2 ⟨hmem, ?_⟩)
      rw [Bool.not_eq_true', containsExclusion, List.any_append, Bool.or_eq_false_iff] at hfree
      rw [Bool.not_eq_true', containsExclusion]
      exact hfree.1
    · exact List.mem_append_right _ hkept
  · exact GrowsBy.refl draft

theorem growsBy_updatePersistence (draft : ExclusionDraft) (item : PersistenceItem)
    (update : PersistenceFlagDraft → PersistenceFlagDraft) :
    GrowsBy qt accepted draft (draft.updatePersistence item update) := by
  cases item <;> exact ⟨rfl, fun _ hentry => Or.inl hentry⟩

end ExclusionDraft

namespace StagingSession

/-- The paths that the edit adds are of the class. -/
def ExclusionEdit.OfClass (plain : Text → Prop) : ExclusionEdit → Prop
  | .addEntry raw | .importAdd raw => plain raw
  | .restoreSelection selection => ∀ item ∈ selection, item.persistence = none → plain item.path
  | .importRemove _ | .removeSelection _ => True

/-- The paths that the action adds are of the class. -/
def Action.OfClass {ι : Type*} (plain : Text → Prop) : Action ι → Prop
  | .exclusion _ edit => edit.OfClass plain
  | .addEntries _ _ paths _ => ∀ path ∈ paths, plain path
  | .removePaths .. | .restorePaths .. | .load _ => True

/-- All texts together are a class. -/
theorem Action.ofClass_all {ι : Type*} (action : Action ι) : action.OfClass fun _ => True := by
  cases action with
  | exclusion index edit =>
      cases edit with
      | restoreSelection selection => exact fun _ _ _ => trivial
      | _ => trivial
  | addEntries index inspect paths kind => exact fun _ _ => trivial
  | _ => trivial

end StagingSession

namespace ExclusionEditor

variable {qt} {plain : Text → Prop}

variable (qt plain) in
/-- The texts of the class that the editor would accept as additions now. -/
def Accepts (editor : ExclusionEditor) (path : Text) : Prop :=
  ∃ raw, plain raw ∧ (editor.validateAddition qt raw).outcome = .applied ∧
    editor.entryPath qt raw = path

theorem growsBy_removeSelected (editor : ExclusionEditor) (selection : List Selection)
    (draft : ExclusionDraft) {accepted : Text → Prop} :
    ExclusionDraft.GrowsBy qt accepted draft (selection.foldl (editor.removeSelected qt) draft) := by
  induction selection generalizing draft with
  | nil => exact ExclusionDraft.GrowsBy.refl draft
  | cons item rest ih =>
      apply ExclusionDraft.GrowsBy.trans _ (ih _)
      rw [removeSelected]
      cases item.persistence with
      | some persistence => exact ExclusionDraft.growsBy_updatePersistence draft persistence _
      | none => exact ExclusionDraft.growsBy_remove draft _

theorem growsBy_restoreSelected {accepted : Text → Prop} {selection : List Selection}
    (haccepted : ∀ item ∈ selection, item.persistence = none → accepted item.path)
    (draft : ExclusionDraft) :
    ExclusionDraft.GrowsBy qt accepted draft (selection.foldl (restoreSelected qt) draft) := by
  induction selection generalizing draft with
  | nil => exact ExclusionDraft.GrowsBy.refl draft
  | cons item rest ih =>
      apply ExclusionDraft.GrowsBy.trans _
        (ih (fun other hother => haccepted other (List.mem_cons_of_mem item hother)) _)
      rw [restoreSelected]
      cases hitem : item.persistence with
      | some persistence => exact ExclusionDraft.growsBy_updatePersistence draft persistence _
      | none => exact ExclusionDraft.growsBy_add draft (haccepted item List.mem_cons_self hitem)

/-- An edit leaves the editor alone, or it publishes a draft that grows only by
texts that the editor accepts. -/
theorem editExclusions_spec (editor : ExclusionEditor)
    {edit : StagingSession.ExclusionEdit} (hplain : edit.OfClass plain) :
    StagingSession.editExclusions qt editor edit = editor ∨
      ∃ draft, StagingSession.editExclusions qt editor edit = editor.withDraft qt draft ∧
        ExclusionDraft.GrowsBy qt (editor.Accepts qt plain) editor.draft draft := by
  cases edit with
  | addEntry raw =>
      show (editor.addEntry qt raw).2 = editor ∨ _
      by_cases haccepted : (editor.validateAddition qt raw).outcome = .applied
      · rcases addEntry_spec qt editor raw with ⟨-, -, heq | heq⟩ | ⟨-, heq⟩
        · exact Or.inl heq
        · exact Or.inr ⟨_, heq, ExclusionDraft.GrowsBy.refl _⟩
        · exact Or.inr ⟨_, heq, ExclusionDraft.growsBy_add _ ⟨raw, hplain, haccepted, rfl⟩⟩
      · exact Or.inl (by rw [addEntry, if_pos haccepted])
  | importAdd raw =>
      rcases importAdd_spec qt editor raw with ⟨-, heq⟩ | ⟨-, haccepted, heq⟩
      · exact Or.inl heq
      · exact Or.inr ⟨_, heq, ExclusionDraft.growsBy_add _ ⟨raw, hplain, haccepted, rfl⟩⟩
  | importRemove raw =>
      rcases importRemove_spec qt editor raw with ⟨-, heq⟩ | ⟨-, heq⟩
      · exact Or.inl heq
      · exact Or.inr ⟨_, heq, ExclusionDraft.growsBy_remove _ _⟩
  | removeSelection selection =>
      rcases removeSelection_spec qt editor selection with ⟨-, heq⟩ | ⟨-, heq⟩
      · exact Or.inl heq
      · exact Or.inr ⟨_, heq, growsBy_removeSelected editor selection editor.draft⟩
  | restoreSelection selection =>
      rcases restoreSelection_spec qt editor selection with
        ⟨-, heq⟩ | ⟨-, validated, hvalidated, heq⟩
      · exact Or.inl heq
      · refine Or.inr ⟨_, heq, growsBy_restoreSelected ?_ editor.draft⟩
        obtain ⟨rfl, haccepted⟩ := validateSelection_spec qt editor hvalidated
        intro item hitem hnone
        obtain ⟨source, hsource, rfl⟩ := List.mem_map.1 hitem
        split_ifs at hnone ⊢ with hentry
        · exact ⟨source.path, hplain source hsource hentry, haccepted source hsource hentry, rfl⟩
        · exact absurd hnone hentry

/-! ### The effective exclusions -/

/-- A loop that appends what the list does not have yet, up to case. -/
theorem mem_appendUnique (qt : Qt) (f : Text → Text) (paths result : List Text) :
    let appended := paths.foldl (fun result path =>
      if qt.containsText result (f path) then result else result ++ [f path]) result
    (∀ text ∈ appended, text ∈ result ∨ ∃ path ∈ paths, text = f path) ∧
      (∀ text ∈ result, text ∈ appended) ∧
      ∀ path ∈ paths, ∃ text ∈ appended, text.map qt.foldCase = (f path).map qt.foldCase := by
  induction paths generalizing result with
  | nil => simp
  | cons path rest ih =>
      intro appended
      by_cases hcontains : qt.containsText result (f path) = true
      · have happended : appended = rest.foldl (fun result path =>
            if qt.containsText result (f path) then result else result ++ [f path]) result := by
          simp only [appended, List.foldl_cons, if_pos hcontains]
        obtain ⟨horigin, hkept, hcovers⟩ := ih result
        rw [← happended] at horigin hkept hcovers
        refine ⟨fun text htext => ?_, hkept, fun other hother => ?_⟩
        · rcases horigin text htext with hold | ⟨source, hsource, heq⟩
          · exact Or.inl hold
          · exact Or.inr ⟨source, List.mem_cons_of_mem path hsource, heq⟩
        · rcases List.mem_cons.1 hother with rfl | hrest
          · obtain ⟨text, htext, hsame⟩ := (qt.containsText_iff).1 hcontains
            exact ⟨text, hkept text htext, (qt.sameText_iff).1 hsame⟩
          · exact hcovers other hrest
      · have happended : appended = rest.foldl (fun result path =>
            if qt.containsText result (f path) then result else result ++ [f path])
            (result ++ [f path]) := by
          simp only [appended, List.foldl_cons, if_neg hcontains]
        obtain ⟨horigin, hkept, hcovers⟩ := ih (result ++ [f path])
        rw [← happended] at horigin hkept hcovers
        refine ⟨fun text htext => ?_, fun text htext => hkept text (List.mem_append_left _ htext),
          fun other hother => ?_⟩
        · rcases horigin text htext with hold | ⟨source, hsource, heq⟩
          · rcases List.mem_append.1 hold with hold | hnew
            · exact Or.inl hold
            · exact Or.inr ⟨path, List.mem_cons_self, List.mem_singleton.1 hnew⟩
          · exact Or.inr ⟨source, List.mem_cons_of_mem path hsource, heq⟩
        · rcases List.mem_cons.1 hother with rfl | hrest
          · exact ⟨f other, hkept _ (List.mem_append_right _ (List.mem_singleton_self _)), rfl⟩
          · exact hcovers other hrest

theorem mem_effectiveFileExclusions (qt : Qt) {editor : ExclusionEditor} (hkind : editor.kind = .file) :
    (∀ text ∈ editor.effectiveFileExclusions qt,
        ∃ path ∈ editor.draft.current ++ editor.draft.effectiveNext qt,
          text = editor.absoluteFilePath qt path) ∧
      ∀ path ∈ editor.draft.current ++ editor.draft.effectiveNext qt,
        ∃ text ∈ editor.effectiveFileExclusions qt,
          text.map qt.foldCase = (editor.absoluteFilePath qt path).map qt.foldCase := by
  rw [effectiveFileExclusions, hkind]
  obtain ⟨horigin, -, hcovers⟩ := mem_appendUnique qt (editor.absoluteFilePath qt)
    (editor.draft.current ++ editor.draft.effectiveNext qt) []
  refine ⟨fun text htext => ?_, hcovers⟩
  exact (horigin text htext).resolve_left List.not_mem_nil

/-- No staged path that an accepted addition would overlap is known to the policy. -/
theorem accepts_free {editor : ExclusionEditor} {policy : FileStagingConflictPolicy}
    (hcases : Paths.IgnoresCase qt plain) (hkind : editor.kind = .file)
    (hpolicy : editor.conflicts = some policy) {path : Text}
    (haccepts : editor.Accepts qt plain path) :
    FileStagingConflictPolicy.firstConflict qt (editor.absoluteFilePath qt path)
      policy.stagedPaths = none := by
  obtain ⟨raw, -, happlied, rfl⟩ := haccepts
  rw [validateAddition] at happlied
  split_ifs at happlied with hempty
  rw [hkind] at happlied
  dsimp only at happlied
  split_ifs at happlied with hvolume hfree
  · rw [hpolicy, Option.bind_some, FileStagingConflictPolicy.conflictingStagedPath] at hfree
    cases hconflict : FileStagingConflictPolicy.firstConflict qt
        (editor.absoluteFilePath qt (editor.entryPath qt raw)) policy.stagedPaths with
    | none => rfl
    | some conflict =>
        rw [hconflict, Option.getD_some, List.isEmpty_iff] at hfree
        rw [FileStagingConflictPolicy.firstConflict] at hconflict
        have hoverlap := List.find?_some hconflict
        rw [hfree, Paths.overlap_nil hcases] at hoverlap
        cases hoverlap
  · split at happlied <;> cases happlied

/-- An accepted text is kept in a form that is of the class. -/
theorem Accepts.ofClass (hqt : Paths.Normalizes qt plain) {editor : ExclusionEditor}
    (hkind : editor.kind = .file) {path : Text} (haccepts : editor.Accepts qt plain path) :
    plain path := by
  obtain ⟨raw, hraw, -, rfl⟩ := haccepts
  exact (inForm_entryPath hqt fun _ => hraw).2 hkind

theorem withDraft_file (qt : Qt) {editor : ExclusionEditor} (hkind : editor.kind = .file)
    (draft : ExclusionDraft) :
    editor.withDraft qt draft =
      { editor with
        draft := draft
        conflicts := editor.conflicts.map (·.setFileExclusions qt
          (({ editor with draft := draft } : ExclusionEditor).effectiveFileExclusions qt)) } := by
  rw [withDraft, publishFileExclusions, hkind]

end ExclusionEditor

/-! ## Sessions -/

namespace StagingSession

variable {ι : Type*} [DecidableEq ι] (volumeForPath : Text → Except StandardError Text)

/-- The path is on the drive of the volume. -/
def OnVolume (volume : StagingVolume) (path : Text) : Prop :=
  isOnDrive qt (volumeSource volumeForPath) volume.staging.driveLetter path = true

/-- The two paths overlap in the form in which the policy compares paths. -/
def Overlapping (staged exclusion : Text) : Prop :=
  Paths.overlap qt (FileStagingConflictPolicy.normalizedPath qt staged)
    (FileStagingConflictPolicy.normalizedPath qt exclusion) = true

/-- No staged path overlaps an effective exclusion of its volume. -/
def NoOverlap (session : StagingSession ι S) : Prop :=
  ∀ index, ∀ entry ∈ session.draft.entries,
    OnVolume qt volumeForPath (session.volumes index) entry.path →
      ∀ exclusion ∈ (session.volumes index).files.effectiveFileExclusions qt,
        ¬Overlapping qt entry.path exclusion

/-- The policy of the volume has the exclusions of its editor and knows the
entries that are on the volume. -/
structure Watches (entries : List FileStagingEntry) (volume : StagingVolume) : Prop where
  kind : volume.files.kind = .file
  policy : ∃ policy, volume.files.conflicts = some policy ∧
    policy.fileExclusions = FileStagingConflictPolicy.normalizeUnique qt
      (volume.files.effectiveFileExclusions qt) ∧
    ∀ entry ∈ entries, OnVolume qt volumeForPath volume entry.path →
      FileStagingConflictPolicy.normalizedPath qt entry.path ≠ [] →
        ∃ kept ∈ policy.stagedPaths, kept.map qt.foldCase =
          (FileStagingConflictPolicy.normalizedPath qt entry.path).map qt.foldCase

/-- The list has been read, each volume has a drive letter of its own, and each
policy has been told what it has to know. -/
structure InStep (session : StagingSession ι S) : Prop where
  loaded : session.draft.loaded = true
  letters : ∀ first second, qt.sameText (session.volumes first).staging.driveLetter
    (session.volumes second).staging.driveLetter = true → first = second
  watches : ∀ index, Watches qt volumeForPath session.draft.entries (session.volumes index)

/-- The paths of the list, of the baseline and of the exclusions are of the class. -/
structure OfClass (plain : Text → Prop) (session : StagingSession ι S) : Prop where
  staged : ∀ entry ∈ session.draft.entries, plain entry.path
  baseline : ∀ entry ∈ session.draft.baseline, plain entry.path
  excluded : ∀ index, ∀ path ∈ (session.volumes index).files.draft.current ++
    (session.volumes index).files.draft.effectiveNext qt, plain path

variable {qt volumeForPath}

omit [DecidableEq ι] in
/-- A path is on one volume at most. -/
theorem index_eq_of_onVolume {session : StagingSession ι S}
    (hsession : session.InStep qt volumeForPath) {first second : ι} {path : Text}
    (hfirst : OnVolume qt volumeForPath (session.volumes first) path)
    (hsecond : OnVolume qt volumeForPath (session.volumes second) path) : first = second := by
  apply hsession.letters
  rw [OnVolume, isOnDrive] at hfirst hsecond
  cases hdrive : (volumeSource volumeForPath).volumeForPath path with
  | error error =>
      rw [hdrive] at hfirst
      cases hfirst
  | ok drive =>
      rw [hdrive] at hfirst hsecond
      rw [Qt.sameText_iff] at hfirst hsecond ⊢
      exact hfirst.symm.trans hsecond

section Laws

variable {plain : Text → Prop} (hqt : Paths.Normalizes qt plain)
  (hcases : Paths.IgnoresCase qt plain)
include hqt

/-- The exclusions of a volume stay in the class. -/
theorem ofClass_exclusions {session : StagingSession ι S} (hplain : session.OfClass qt plain)
    (index : ι) {draft : ExclusionDraft} (hkind : (session.volumes index).files.kind = .file)
    (hgrows : ExclusionDraft.GrowsBy qt ((session.volumes index).files.Accepts qt plain)
      (session.volumes index).files.draft draft) :
    (session.withFiles index ((session.volumes index).files.withDraft qt draft)).OfClass qt
      plain := by
  refine ⟨hplain.staged, hplain.baseline, fun other path hpath => ?_⟩
  by_cases hother : other = index
  · subst hother
    simp only [withFiles, Function.update_self, ExclusionEditor.withDraft_file qt hkind] at hpath
    rcases List.mem_append.1 hpath with hcurrent | hnext
    · exact hplain.excluded other path (List.mem_append_left _ (hgrows.1 ▸ hcurrent))
    · rcases hgrows.2 path hnext with hold | ⟨added, haccepts, hcase⟩
      · exact hplain.excluded other path (List.mem_append_right _ hold)
      · exact hqt.sameCase added path hcase.symm (haccepts.ofClass hqt hkind)
  · simp only [withFiles, Function.update_of_ne hother] at hpath
    exact hplain.excluded other path hpath

include hcases

/-- An edit of the exclusions of a volume adds none that overlaps a staged path. -/
theorem exclusions_step {session : StagingSession ι S} (hsession : session.InStep qt volumeForPath)
    (hfree : session.NoOverlap qt volumeForPath) (hplain : session.OfClass qt plain) (index : ι)
    {draft : ExclusionDraft}
    (hgrows : ExclusionDraft.GrowsBy qt ((session.volumes index).files.Accepts qt plain)
      (session.volumes index).files.draft draft) :
    (session.withFiles index ((session.volumes index).files.withDraft qt draft)).InStep qt
        volumeForPath ∧
      (session.withFiles index ((session.volumes index).files.withDraft qt draft)).NoOverlap qt
        volumeForPath := by
  obtain ⟨hkind, policy, hpolicy, hexclusions, hstaged⟩ := hsession.watches index
  have hfiles := ExclusionEditor.withDraft_file qt hkind draft
  constructor
  · refine ⟨hsession.loaded, fun first second hsame => ?_, fun other => ?_⟩
    · have hletter : ∀ other, ((session.withFiles index
          ((session.volumes index).files.withDraft qt draft)).volumes other).staging =
            (session.volumes other).staging := by
        intro other
        by_cases hother : other = index
        · rw [hother, withFiles]
          simp
        · rw [withFiles]
          simp [Function.update_of_ne hother]
      rw [hletter, hletter] at hsame
      exact hsession.letters first second hsame
    · by_cases hother : other = index
      · subst hother
        simp only [withFiles, Function.update_self, hfiles, hpolicy, Option.map_some]
        exact ⟨hkind, _, rfl, rfl, hstaged⟩
      · simp only [withFiles, Function.update_of_ne hother]
        exact hsession.watches other
  · intro other entry hentry hvolume exclusion hexclusion
    by_cases hother : other = index
    · subst hother
      simp only [withFiles, Function.update_self, hfiles] at hvolume hexclusion
      have hdrafted : ({ (session.volumes other).files with draft := draft } :
          ExclusionEditor).kind = .file := hkind
      obtain ⟨path, hpath, rfl⟩ :=
        (ExclusionEditor.mem_effectiveFileExclusions qt hdrafted).1 exclusion hexclusion
      have hform : ({ (session.volumes other).files with draft := draft } :
          ExclusionEditor).absoluteFilePath qt path =
            (session.volumes other).files.absoluteFilePath qt path := rfl
      rw [hform]
      have hsource : path ∈ (session.volumes other).files.draft.current ++
          (session.volumes other).files.draft.effectiveNext qt ∨
            ∃ added, (session.volumes other).files.Accepts qt plain added ∧
              path.map qt.foldCase = added.map qt.foldCase := by
        rcases List.mem_append.1 hpath with hcurrent | hnext
        · exact Or.inl (List.mem_append_left _ (hgrows.1 ▸ hcurrent))
        · exact (hgrows.2 path hnext).imp_left (List.mem_append_right _)
      have hlisted := hplain.staged entry hentry
      have habsolute : ∀ {path : Text}, plain path →
          plain ((session.volumes other).files.absoluteFilePath qt path) := fun hpath =>
        (ExclusionEditor.inForm_absoluteFilePath hqt fun _ => hpath).2 hkind
      rw [Overlapping, Bool.not_eq_true]
      rcases hsource with hold | ⟨added, haccepts, hcase⟩
      · obtain ⟨text, htext, hsame⟩ :=
          (ExclusionEditor.mem_effectiveFileExclusions qt hkind).2 path hold
        have hnone := hfree other entry hentry hvolume text htext
        rw [Overlapping, Bool.not_eq_true] at hnone
        have hform := habsolute (hplain.excluded other path hold)
        rwa [Paths.overlap_congr hcases
          (FileStagingConflictPolicy.plain_normalizedPath hqt hlisted)
          (FileStagingConflictPolicy.plain_normalizedPath hqt hform) rfl
          (FileStagingConflictPolicy.normalizedPath_congr hqt hcases hform hsame.symm)]
      · have hadded := haccepts.ofClass hqt hkind
        have hform := habsolute (hqt.sameCase added path hcase.symm hadded)
        have hnone := FileStagingConflictPolicy.overlap_of_kept hqt hcases (habsolute hadded)
          hlisted (ExclusionEditor.accepts_free hcases hkind hpolicy haccepts)
          (hstaged entry hentry hvolume)
        rw [Paths.overlap_comm]
        rw [Paths.overlap_congr hcases
          (FileStagingConflictPolicy.plain_normalizedPath hqt hform)
          (FileStagingConflictPolicy.plain_normalizedPath hqt hlisted)
          (FileStagingConflictPolicy.normalizedPath_congr hqt hcases hform
            (ExclusionEditor.identity_congr hqt
              (fun _ => hqt.sameCase added path hcase.symm hadded) hcase)) rfl]
        exact hnone
    · simp only [withFiles, Function.update_of_ne hother] at hvolume hexclusion
      exact hfree other entry hentry hvolume exclusion hexclusion

end Laws

variable (qt volumeForPath) in
/-- A new candidate is of the class, is on the volume of its editor and meets no exclusion. -/
def Fits (plain : Text → Prop) (session : StagingSession ι S) (index : ι)
    (entry : FileStagingEntry) : Prop :=
  plain entry.path ∧ OnVolume qt volumeForPath (session.volumes index) entry.path ∧
    (session.volumes index).files.conflicts.bind (·.conflictingExclusion qt entry.path) = none

end StagingSession

/-! ### New candidates -/

namespace FileStagingPage

variable {qt} (source : CommitTraversalSource)

theorem mem_insertEntry {entries inserted : List FileStagingEntry} {kind : FileStagingKind}
    {path : Text} (hinserted : insertEntry qt entries kind path = some inserted)
    {entry : FileStagingEntry} (hmem : entry ∈ inserted) :
    entry ∈ entries ∨ entry = ⟨kind, path⟩ := by
  rw [insertEntry] at hinserted
  split_ifs at hinserted with hcovered hpresent hdirectory
  all_goals rw [Option.some.injEq] at hinserted; subst hinserted
  · rcases List.mem_append.1 hmem with hkept | hnew
    · exact Or.inl (List.mem_of_mem_eraseP (List.mem_filter.1 hkept).1)
    · exact Or.inr (List.mem_singleton.1 hnew)
  · rcases List.mem_append.1 hmem with hkept | hnew
    · exact Or.inl (List.mem_of_mem_eraseP hkept)
    · exact Or.inr (List.mem_singleton.1 hnew)

/-- A path that is not turned down is on the drive and meets no exclusion. -/
theorem additionRejection_none {page : FileStagingPage S} {kind : FileStagingKind} {path : Text}
    (hnone : page.additionRejection qt source kind path = none) :
    isOnDrive qt source page.editor.driveLetter path = true ∧
      page.conflicts.bind (·.conflictingExclusion qt path) = none := by
  rw [additionRejection] at hnone
  generalize (if kind = .file then CommitTargetKind.file else .folder) = expected at hnone
  cases hnode : source.inspect ⟨.file, path, [], []⟩ with
  | error error =>
      rw [hnode] at hnone
      dsimp only at hnone
      split_ifs at hnone
  | ok node =>
      rw [isOnDrive]
      cases hdrive : source.volumeForPath path with
      | error error =>
          rw [hnode, hdrive] at hnone
          dsimp only at hnone
          split_ifs at hnone
      | ok drive =>
          rw [hnode, hdrive] at hnone
          dsimp only at hnone ⊢
          split_ifs at hnone with hlocal hskipped hkind hempty hother hroot
          rw [Bool.not_eq_true', Bool.not_eq_false] at hother
          exact ⟨hother, Option.map_eq_none_iff.1 hnone⟩

theorem mem_addPaths {page : FileStagingPage S} {kind : FileStagingKind} {paths : List Text}
    {addition : Addition} {entry : FileStagingEntry}
    (hmem : entry ∈ (paths.foldl (page.addPath qt source kind) addition).candidate) :
    entry ∈ addition.candidate ∨
      (∃ path ∈ paths, entry.path = Paths.normalize qt path) ∧
        isOnDrive qt source page.editor.driveLetter entry.path = true ∧
          page.conflicts.bind (·.conflictingExclusion qt entry.path) = none := by
  induction paths generalizing addition with
  | nil => exact Or.inl hmem
  | cons path rest ih =>
      rcases ih hmem with hadded | ⟨⟨other, hother, hpath⟩, hfits⟩
      · rw [addPath] at hadded
        split_ifs at hadded with hempty
        · exact Or.inl hadded
        · cases hrejection : page.additionRejection qt source kind (Paths.normalize qt path) with
          | some rejection =>
              rw [hrejection] at hadded
              exact Or.inl hadded
          | none =>
              rw [hrejection] at hadded
              dsimp only at hadded
              cases hinserted : insertEntry qt addition.candidate kind (Paths.normalize qt path) with
              | none =>
                  rw [hinserted] at hadded
                  exact Or.inl hadded
              | some candidate =>
                  rw [hinserted] at hadded
                  rcases mem_insertEntry hinserted hadded with hold | rfl
                  · exact Or.inl hold
                  · exact Or.inr ⟨⟨path, List.mem_cons_self, rfl⟩,
                      additionRejection_none source hrejection⟩
      · exact Or.inr ⟨⟨other, List.mem_cons_of_mem path hother, hpath⟩, hfits⟩

theorem mem_restoreEntries {page : FileStagingPage S} {paths : List Text}
    {candidate pending restored : List FileStagingEntry}
    (hok : page.restoreEntries qt paths candidate pending = .ok restored)
    {entry : FileStagingEntry} (hmem : entry ∈ restored) :
    entry ∈ candidate ∨
      entry ∈ pending ∧ page.conflicts.bind (·.conflictingExclusion qt entry.path) = none := by
  induction pending generalizing candidate with
  | nil =>
      rw [restoreEntries, Except.ok.injEq] at hok
      exact Or.inl (hok ▸ hmem)
  | cons first rest ih =>
      rw [restoreEntries] at hok
      split_ifs at hok with hselected
      · rcases ih hok with hold | ⟨hrest, hnone⟩
        · exact Or.inl hold
        · exact Or.inr ⟨List.mem_cons_of_mem first hrest, hnone⟩
      · cases hconflict : page.conflicts.bind (·.conflictingExclusion qt first.path) with
        | some conflict =>
            rw [hconflict] at hok
            cases hok
        | none =>
            rw [hconflict] at hok
            rcases ih hok with happended | ⟨hrest, hnone⟩
            · rw [appendMissing] at happended
              split_ifs at happended with hpresent
              · exact Or.inl happended
              · rcases List.mem_append.1 happended with hold | hnew
                · exact Or.inl hold
                · rw [List.mem_singleton.1 hnew]
                  exact Or.inr ⟨List.mem_cons_self, hconflict⟩
            · exact Or.inr ⟨List.mem_cons_of_mem first hrest, hnone⟩

end FileStagingPage

/-! ### Runs -/

namespace StagingSession

variable {ι : Type*} [DecidableEq ι] {qt} {volumeForPath : Text → Except StandardError Text}
variable {plain : Text → Prop} (hqt : Paths.Normalizes qt plain)
  (hcases : Paths.IgnoresCase qt plain)

section Updated

variable {session : StagingSession ι S} {index : ι} {after : FileStagingPage S}
  {candidate : List FileStagingEntry}
  (hupdated : FileStagingPage.Updated qt candidate (session.page index) after)
include hupdated

omit [DecidableEq ι] in
theorem mem_updated {entry : FileStagingEntry} (hentry : entry ∈ after.draft.entries) :
    entry ∈ session.draft.entries ∨ entry ∈ candidate := by
  rcases hupdated.outcome with ⟨hsame, -⟩ | ⟨hsame | hreplaced, -⟩
  · rw [hsame] at hentry
    exact Or.inl hentry
  · rw [hsame] at hentry
    exact Or.inl hentry
  · rw [hreplaced] at hentry
    exact Or.inr ((List.mem_insertionSort _).1 hentry)

omit [DecidableEq ι] in
/-- Apart from its entries the draft is as it was. -/
theorem draft_updated : after.draft.loaded = session.draft.loaded ∧
    after.draft.baseline = session.draft.baseline := by
  rcases hupdated.outcome with ⟨hsame, -⟩ | ⟨hsame | hsame, -⟩ <;> rw [hsame] <;> exact ⟨rfl, rfl⟩

theorem driveLetter_withPage (other : ι) :
    ((session.withPage index after).volumes other).staging.driveLetter =
      (session.volumes other).staging.driveLetter := by
  by_cases hother : other = index
  · rw [hother]
    simp only [withPage, Function.update_self]
    exact hupdated.driveLetter
  · rw [withPage]
    simp [Function.update_of_ne hother]

theorem onVolume_withPage (other : ι) (path : Text) :
    OnVolume qt volumeForPath ((session.withPage index after).volumes other) path ↔
      OnVolume qt volumeForPath (session.volumes other) path := by
  rw [OnVolume, OnVolume, driveLetter_withPage hupdated]

/-- The staged paths stay in the class. -/
theorem ofClass_staging (hplain : session.OfClass qt plain)
    (hcandidate : ∀ entry ∈ candidate, entry ∈ session.draft.entries ∨ plain entry.path) :
    (session.withPage index after).OfClass qt plain := by
  refine ⟨fun entry hentry => ?_, ?_, fun other path hpath => ?_⟩
  · rcases mem_updated hupdated hentry with hold | hnew
    · exact hplain.staged entry hold
    · exact (hcandidate entry hnew).elim (hplain.staged entry) id
  · rw [withPage, (draft_updated hupdated).2]
    exact hplain.baseline
  · by_cases hother : other = index
    · subst hother
      simp only [withPage, Function.update_self] at hpath
      exact hplain.excluded other path hpath
    · simp only [withPage, Function.update_of_ne hother] at hpath
      exact hplain.excluded other path hpath

/-- The policies are told of an edit of the list whose new entries are on the volume. -/
theorem inStep_staging (hsession : session.InStep qt volumeForPath)
    (hcandidate : ∀ entry ∈ candidate, entry ∈ session.draft.entries ∨
      OnVolume qt volumeForPath (session.volumes index) entry.path) :
    (session.withPage index after).InStep qt volumeForPath := by
  obtain ⟨hkind, policy, hpolicy, hexclusions, hstaged⟩ := hsession.watches index
  refine ⟨(draft_updated hupdated).1.trans hsession.loaded, fun first second hsame => ?_,
    fun other => ?_⟩
  · rw [driveLetter_withPage hupdated, driveLetter_withPage hupdated] at hsame
    exact hsession.letters first second hsame
  · by_cases hother : other = index
    · subst hother
      refine ⟨by simpa only [withPage, Function.update_self] using hkind, ?_⟩
      rcases hupdated.outcome with ⟨hdraft, hconflicts⟩ | ⟨-, hconflicts⟩
      · refine ⟨policy, ?_, ?_, fun entry hentry hon => ?_⟩
        · simp only [withPage, Function.update_self, hconflicts]
          exact hpolicy
        · simp only [withPage, Function.update_self]
          exact hexclusions
        · rw [withPage, hdraft] at hentry
          exact hstaged entry hentry ((onVolume_withPage hupdated other entry.path).1 hon)
      · refine ⟨policy.setStagedEntries qt after.draft.entries, ?_, ?_,
          fun entry hentry hon hnonempty => ?_⟩
        · have hbefore : (session.page other).conflicts = some policy := hpolicy
          simp only [withPage, Function.update_self, hconflicts, hbefore, Option.map_some]
        · simp only [withPage, Function.update_self]
          exact hexclusions
        · exact FileStagingConflictPolicy.exists_mem_normalizeUnique
            (List.mem_map.2 ⟨entry, hentry, rfl⟩) hnonempty
    · obtain ⟨hotherKind, hotherPolicy, hotherSome, hotherExclusions, hotherStaged⟩ :=
        hsession.watches other
      refine ⟨?_, hotherPolicy, ?_, ?_, fun entry hentry hon => ?_⟩
      · simpa only [withPage, Function.update_of_ne hother] using hotherKind
      · simpa only [withPage, Function.update_of_ne hother] using hotherSome
      · simpa only [withPage, Function.update_of_ne hother] using hotherExclusions
      · have hon' := (onVolume_withPage hupdated other entry.path).1 hon
        rcases mem_updated hupdated hentry with hold | hnew
        · exact hotherStaged entry hold hon'
        · rcases hcandidate entry hnew with hold | hvolume
          · exact hotherStaged entry hold hon'
          · exact absurd (index_eq_of_onVolume hsession hon' hvolume) hother

include hqt hcases

/-- An edit of the list whose new entries fit stages nothing that is excluded. -/
theorem noOverlap_staging (hsession : session.InStep qt volumeForPath)
    (hfree : session.NoOverlap qt volumeForPath) (hplain : session.OfClass qt plain)
    (hcandidate : ∀ entry ∈ candidate, entry ∈ session.draft.entries ∨
      session.Fits qt volumeForPath plain index entry) :
    (session.withPage index after).NoOverlap qt volumeForPath := by
  intro other entry hentry hon exclusion hexclusion
  have hon' := (onVolume_withPage hupdated other entry.path).1 hon
  have hexclusion' : exclusion ∈ (session.volumes other).files.effectiveFileExclusions qt := by
    by_cases hother : other = index
    · subst hother
      simp only [withPage, Function.update_self] at hexclusion
      exact hexclusion
    · simpa only [withPage, Function.update_of_ne hother] using hexclusion
  rcases (mem_updated hupdated hentry).elim Or.inl (hcandidate entry) with
    hold | ⟨hlisted, hnew, hnone⟩
  · exact hfree other entry hold hon' exclusion hexclusion'
  · obtain rfl : other = index := index_eq_of_onVolume hsession hon' hnew
    obtain ⟨hkind, policy, hpolicy, hexclusions, -⟩ := hsession.watches other
    rw [hpolicy, Option.bind_some, FileStagingConflictPolicy.conflictingExclusion,
      hexclusions] at hnone
    obtain ⟨path, hpath, rfl⟩ :=
      (ExclusionEditor.mem_effectiveFileExclusions qt hkind).1 exclusion hexclusion'
    have hform := (ExclusionEditor.inForm_absoluteFilePath hqt
      fun _ => hplain.excluded other path hpath).2 hkind
    rw [Overlapping, Bool.not_eq_true]
    exact FileStagingConflictPolicy.overlap_of_kept hqt hcases hlisted hform hnone
      (FileStagingConflictPolicy.exists_mem_normalizeUnique hexclusion')

theorem staging_step (hsession : session.InStep qt volumeForPath)
    (hfree : session.NoOverlap qt volumeForPath) (hplain : session.OfClass qt plain)
    (hcandidate : ∀ entry ∈ candidate, entry ∈ session.draft.entries ∨
      session.Fits qt volumeForPath plain index entry) :
    (session.withPage index after).InStep qt volumeForPath ∧
      (session.withPage index after).NoOverlap qt volumeForPath ∧
        (session.withPage index after).OfClass qt plain :=
  ⟨inStep_staging hupdated hsession
      fun entry hentry => (hcandidate entry hentry).imp_right fun hfits => hfits.2.1,
    noOverlap_staging hqt hcases hupdated hsession hfree hplain hcandidate,
    ofClass_staging hupdated hplain
      fun entry hentry => (hcandidate entry hentry).imp_right And.left⟩

end Updated

include hqt hcases

variable (store : FileStagingStore S)

theorem noOverlap_step {session : StagingSession ι S} (hsession : session.InStep qt volumeForPath)
    (hfree : session.NoOverlap qt volumeForPath) (hplain : session.OfClass qt plain)
    {action : Action ι} (haction : action.OfClass plain) :
    (session.step qt volumeForPath store action).InStep qt volumeForPath ∧
      (session.step qt volumeForPath store action).NoOverlap qt volumeForPath ∧
        (session.step qt volumeForPath store action).OfClass qt plain := by
  cases action with
  | exclusion index edit =>
      rcases ExclusionEditor.editExclusions_spec (session.volumes index).files haction with
        hsame | ⟨draft, hdraft, hgrows⟩
      · have hstays : session.withFiles index (session.volumes index).files = session := by
          simp [withFiles]
        rw [step, hsame, hstays]
        exact ⟨hsession, hfree, hplain⟩
      · rw [step, hdraft]
        obtain ⟨hnext, hnextFree⟩ := exclusions_step hqt hcases hsession hfree hplain index hgrows
        exact ⟨hnext, hnextFree,
          ofClass_exclusions hqt hplain index (hsession.watches index).kind hgrows⟩
  | addEntries index inspect paths kind =>
      refine staging_step hqt hcases (FileStagingPage.addEntries_updated qt
        ⟨inspect, volumeForPath⟩ store hsession.loaded paths kind) hsession hfree hplain
          (fun entry hentry => ?_)
      rcases FileStagingPage.mem_addPaths _ hentry with hold | ⟨⟨path, hpath, heq⟩, hfits⟩
      · exact Or.inl hold
      · exact Or.inr ⟨heq ▸ hqt.normal path (haction path hpath), hfits⟩
  | removePaths index paths =>
      exact staging_step hqt hcases
        (FileStagingPage.removePaths_updated qt _ store hsession.loaded paths) hsession hfree hplain
        (fun entry hentry =>
          Or.inl ((FileStagingPage.removePaths_sublist paths _).mem hentry))
  | restorePaths index paths =>
      refine staging_step hqt hcases
        (FileStagingPage.restorePaths_updated qt _ store hsession.loaded paths) hsession hfree hplain
        (fun entry hentry => ?_)
      cases hrestored : (session.page index).restoreEntries qt paths (session.page index).draft.entries
          ((session.page index).baselineEntries qt (volumeSource volumeForPath)) with
      | error conflict =>
          rw [hrestored] at hentry
          exact Or.inl hentry
      | ok candidate =>
          rw [hrestored] at hentry
          rcases FileStagingPage.mem_restoreEntries hrestored hentry with hold | ⟨hbaseline, hnone⟩
          · exact Or.inl hold
          · obtain ⟨hlisted, hvolume⟩ := List.mem_filter.1 hbaseline
            exact Or.inr ⟨hplain.baseline entry hlisted, hvolume, hnone⟩
  | load index =>
      exact staging_step hqt hcases
        (FileStagingPage.load_updated qt _ store hsession.loaded) hsession hfree hplain
        (fun entry hentry => Or.inl hentry)

/-- No interleaving of exclusion edits, edits of the list and reloads makes a
staged path overlap an effective exclusion of its volume; the paths are of a
class whose normal form depends on nothing but their letters up to case. -/
theorem noOverlap_run {session : StagingSession ι S} (hsession : session.InStep qt volumeForPath)
    (hfree : session.NoOverlap qt volumeForPath) (hplain : session.OfClass qt plain)
    {actions : List (Action ι)} (hactions : ∀ action ∈ actions, action.OfClass plain) :
    (actions.foldl (step qt volumeForPath store) session).InStep qt volumeForPath ∧
      (actions.foldl (step qt volumeForPath store) session).NoOverlap qt volumeForPath := by
  induction actions generalizing session with
  | nil => exact ⟨hsession, hfree⟩
  | cons action rest ih =>
      obtain ⟨hnext, hnextFree, hnextPlain⟩ := noOverlap_step hqt hcases store hsession hfree hplain
        (hactions action List.mem_cons_self)
      exact ih hnext hnextFree hnextPlain fun other hother =>
        hactions other (List.mem_cons_of_mem action hother)

end StagingSession

namespace StagingSession

/-- The two files of the list, both known to the policy. -/
def watchedVolume : StagingSession Unit (List FileStagingEntry) :=
  oneVolume.step Qt.ascii onZ StagingWorld.memoryStore (.load ())

/-- An exclusion above a staged file is turned down until the file is removed. -/
def excludeLater : List (Action Unit) :=
  [.exclusion () (.addEntry "\\d".toList), .removePaths () ["Z:\\d\\a".toList],
    .exclusion () (.addEntry "\\d".toList), .restorePaths () ["Z:\\d\\a".toList]]

theorem noOverlap_run_excludeLater :
    (excludeLater.foldl (step Qt.ascii onZ StagingWorld.memoryStore) watchedVolume).InStep Qt.ascii
        onZ ∧
      (excludeLater.foldl (step Qt.ascii onZ StagingWorld.memoryStore) watchedVolume).NoOverlap
        Qt.ascii onZ := by
  have hexclusions : (watchedVolume.volumes ()).files.effectiveFileExclusions Qt.ascii = [] := by
    decide +kernel
  have hpolicy : (watchedVolume.volumes ()).files.conflicts =
      some ⟨[], ["Z:\\d\\a".toList, "Z:\\e".toList]⟩ := by decide +kernel
  have hentries : watchedVolume.draft.entries =
      [⟨.file, "Z:\\d\\a".toList⟩, ⟨.file, "Z:\\e".toList⟩] := by decide +kernel
  refine noOverlap_run Paths.ascii_normalizes Paths.ascii_ignoresCase StagingWorld.memoryStore
    ⟨by decide +kernel, fun _ _ _ => rfl, fun index => ⟨?_, _, hpolicy, ?_, ?_⟩⟩ ?_
    ⟨fun _ _ => trivial, fun _ _ => trivial, fun _ _ _ => trivial⟩ ?_
  · show (watchedVolume.volumes ()).files.kind = .file
    decide +kernel
  · rw [hexclusions]
    decide +kernel
  · rw [hentries]
    intro entry hentry _ _
    simp only [List.mem_cons, List.not_mem_nil, or_false] at hentry
    rcases hentry with rfl | rfl
    · exact ⟨_, List.mem_cons_self, by decide +kernel⟩
    · exact ⟨_, List.mem_cons_of_mem _ List.mem_cons_self, by decide +kernel⟩
  · intro index entry _ _ exclusion hexclusion
    rw [hexclusions] at hexclusion
    cases hexclusion
  · exact fun action _ => action.ofClass_all

end StagingSession

end UwfManager
