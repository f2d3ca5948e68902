import Mathlib.Data.Fintype.Defs
import UwfManager.Configuration.ExclusionEditing
import UwfManager.Staging.FileStagingEditor

/-!
# Sessions that stage files

The volumes of a session edit one draft of the staging list, each through its
own editor, and each has an editor of its exclusions.  The file models the
interleavings of these edits and proves which of them keep the list free of
repeated paths and of entries below a staged directory.
-/

namespace UwfManager

variable {S : Type*} (qt : Qt)

/-! ## The draft in an operation of an editor -/

namespace FileStagingDraft

variable (store : FileStagingStore S)

theorem load_eq_of_loaded {draft : FileStagingDraft} (hloaded : draft.loaded = true) (state : S) :
    draft.load store state =
      (if draft.baselineKnown then .ok draft.entries else .error baselineUnknown, draft, state) := by
  rw [load, ensureLoaded_of_loaded store hloaded]
  dsimp only
  split_ifs <;> rfl

theorem replace_eq_of_loaded {draft : FileStagingDraft} (hloaded : draft.loaded = true)
    (entries : List FileStagingEntry) (state : S) :
    draft.replace qt store entries state =
      if draft.baselineKnown then
        (.ok (), if sameEntries qt draft.entries entries then draft
          else { draft with entries := entries }, state)
      else (.error baselineUnknown, draft, state) := by
  rw [replace, load_eq_of_loaded store hloaded]
  by_cases hknown : draft.baselineKnown = true
  · rw [if_pos hknown, if_pos hknown]
    dsimp only
    split_ifs <;> rfl
  · rw [if_neg hknown, if_neg hknown]

end FileStagingDraft

namespace FileStagingPage

variable (source : CommitTraversalSource) (store : FileStagingStore S)

/-- What an operation with this candidate list leaves behind: it touches neither
the draft nor the policy, or the draft has kept its entries or taken over the
candidates and the policy knows the entries of the draft. -/
structure Updated (candidate : List FileStagingEntry) (before after : FileStagingPage S) :
    Prop where
  driveLetter : after.editor.driveLetter = before.editor.driveLetter
  outcome : after.draft = before.draft ∧ after.conflicts = before.conflicts ∨
    (after.draft = before.draft ∨
        after.draft = { before.draft with entries := sortEntries qt candidate }) ∧
      after.conflicts = before.conflicts.map (·.setStagedEntries qt after.draft.entries)

theorem Updated.refl (candidate : List FileStagingEntry) (page : FileStagingPage S) :
    Updated qt candidate page page := ⟨rfl, Or.inl ⟨rfl, rfl⟩⟩

variable {page : FileStagingPage S} (hloaded : page.draft.loaded = true)
include hloaded

theorem loadDraft_eq : page.loadDraft store =
    (if page.draft.baselineKnown then .ok page.draft.entries
      else .error FileStagingDraft.baselineUnknown, page) := by
  rw [loadDraft, FileStagingDraft.load_eq_of_loaded store hloaded]

theorem updateDraft_updated (candidate : List FileStagingEntry) :
    Updated qt candidate page (page.updateDraft qt source store candidate).2 := by
  rw [updateDraft, FileStagingDraft.replace_eq_of_loaded qt store hloaded]
  by_cases hknown : page.draft.baselineKnown = true
  · rw [if_pos hknown]
    by_cases hsame : sameEntries qt page.draft.entries (sortEntries qt candidate) = true
    · rw [if_pos hsame]
      dsimp only
      rw [loadDraft_eq store hloaded, if_pos hknown]
      exact ⟨rfl, Or.inr ⟨Or.inl rfl, rfl⟩⟩
    · have hreplaced : ({ page with draft := { page.draft with
          entries := sortEntries qt candidate } } : FileStagingPage S).draft.loaded = true := hloaded
      rw [if_neg hsame]
      dsimp only
      rw [loadDraft_eq store hreplaced, if_pos hknown]
      exact ⟨rfl, Or.inr ⟨Or.inr rfl, rfl⟩⟩
  · rw [if_neg hknown]
    dsimp only [FileStagingDraft.baselineUnknown]
    rw [recoverDraft, loadDraft_eq store hloaded, if_neg hknown]
    exact ⟨rfl, Or.inl ⟨rfl, rfl⟩⟩

theorem load_updated :
    Updated qt page.draft.entries page (page.load qt source store).2 := by
  rw [load, loadDraft_eq store hloaded]
  by_cases hknown : page.draft.baselineKnown = true
  · rw [if_pos hknown]
    dsimp only
    split_ifs <;> exact ⟨rfl, Or.inr ⟨Or.inl rfl, rfl⟩⟩
  · rw [if_neg hknown]
    exact ⟨rfl, Or.inl ⟨rfl, rfl⟩⟩

/-- Signals that were emitted before play no part. -/
theorem updateDraft_signaled (signals : List FileStagingSignal)
    (candidate : List FileStagingEntry) :
    Updated qt candidate page
      (({ page with signals := signals } : FileStagingPage S).updateDraft qt source store
        candidate).2 := by
  have hsignaled : ({ page with signals := signals } : FileStagingPage S).draft.loaded = true :=
    hloaded
  obtain ⟨hletter, houtcome⟩ := updateDraft_updated qt source store hsignaled candidate
  exact ⟨hletter, houtcome⟩

/-- The candidates of an addition. -/
theorem addEntries_updated (paths : List Text) (kind : FileStagingKind) :
    Updated qt (paths.foldl (page.addPath qt source kind)
        { candidate := page.draft.entries }).candidate
      page (page.addEntries qt source store paths kind).2 := by
  rw [addEntries, loadDraft_eq store hloaded]
  by_cases hknown : page.draft.baselineKnown = true
  · rw [if_pos hknown]
    dsimp only
    generalize paths.foldl (page.addPath qt source kind) { candidate := page.draft.entries } =
      addition
    split_ifs
    · exact updateDraft_signaled qt source store hloaded _ addition.candidate
    · exact ⟨rfl, Or.inl ⟨rfl, rfl⟩⟩
  · rw [if_neg hknown]
    exact ⟨rfl, Or.inl ⟨rfl, rfl⟩⟩

theorem removePaths_updated (paths : List Text) :
    Updated qt (paths.foldl (removePath qt) page.draft.entries) page
      (page.removePaths qt source store paths).2 := by
  rw [removePaths]
  split_ifs
  · exact Updated.refl qt _ page
  · rw [loadDraft_eq store hloaded]
    by_cases hknown : page.draft.baselineKnown = true
    · rw [if_pos hknown]
      dsimp only
      split_ifs
      · exact updateDraft_updated qt source store hloaded _
      · exact ⟨rfl, Or.inl ⟨rfl, rfl⟩⟩
    · rw [if_neg hknown]
      exact ⟨rfl, Or.inl ⟨rfl, rfl⟩⟩

/-- A restoration that is turned down changes nothing. -/
theorem restorePaths_updated (paths : List Text) :
    Updated qt (match page.restoreEntries qt paths page.draft.entries
          (page.baselineEntries qt source) with
        | .error _ => page.draft.entries
        | .ok candidate => candidate)
      page (page.restorePaths qt source store paths).2 := by
  rw [restorePaths, loadDraft_eq store hloaded]
  by_cases hknown : page.draft.baselineKnown = true
  · rw [if_pos hknown]
    dsimp only
    cases page.restoreEntries qt paths page.draft.entries (page.baselineEntries qt source) with
    | error conflict => exact ⟨rfl, Or.inl ⟨rfl, rfl⟩⟩
    | ok candidate => exact updateDraft_updated qt source store hloaded candidate
  · rw [if_neg hknown]
    exact ⟨rfl, Or.inl ⟨rfl, rfl⟩⟩

theorem restorePaths_unknown (hunknown : ¬page.draft.baselineKnown = true) (paths : List Text) :
    (page.restorePaths qt source store paths).2 = page := by
  rw [restorePaths, loadDraft_eq store hloaded, if_neg hunknown]

end FileStagingPage

/-! ## Sessions -/

structure StagingVolume where
  files : ExclusionEditor
  staging : FileStagingEditor

/-- The volumes, named by an index, share the draft and its store. -/
structure StagingSession (ι S : Type*) where
  volumes : ι → StagingVolume
  draft : FileStagingDraft
  stored : S

namespace StagingSession

variable {ι : Type*}

/-- The exclusion editor and the staging editor of a volume share its policy. -/
def page (session : StagingSession ι S) (volume : ι) : FileStagingPage S where
  editor := (session.volumes volume).staging
  conflicts := (session.volumes volume).files.conflicts
  draft := session.draft
  stored := session.stored

variable [DecidableEq ι]

def withPage (session : StagingSession ι S) (volume : ι) (page : FileStagingPage S) :
    StagingSession ι S where
  volumes := Function.update session.volumes volume
    ⟨{ (session.volumes volume).files with conflicts := page.conflicts }, page.editor⟩
  draft := page.draft
  stored := page.stored

def withFiles (session : StagingSession ι S) (volume : ι) (files : ExclusionEditor) :
    StagingSession ι S :=
  { session with
    volumes := Function.update session.volumes volume
      { session.volumes volume with files := files } }

inductive ExclusionEdit where
  | addEntry (raw : Text)
  | importAdd (raw : Text)
  | importRemove (raw : Text)
  | removeSelection (selection : List Selection)
  | restoreSelection (selection : List Selection)

def editExclusions (files : ExclusionEditor) : ExclusionEdit → ExclusionEditor
  | .addEntry raw => (files.addEntry qt raw).2
  | .importAdd raw => (files.importAdd qt raw).2
  | .importRemove raw => (files.importRemove qt raw).2
  | .removeSelection selection => (files.removeSelection qt selection).2
  | .restoreSelection selection => (files.restoreSelection qt selection).2

/-- `load` is also what a queued reload of a volume does when it is delivered.
Each addition finds the files as they are at that moment. -/
inductive Action (ι : Type*) where
  | exclusion (volume : ι) (edit : ExclusionEdit)
  | addEntries (volume : ι) (inspect : CommitNode → Except StandardError (Option CommitNode))
      (paths : List Text) (kind : FileStagingKind)
  | removePaths (volume : ι) (paths : List Text)
  | restorePaths (volume : ι) (paths : List Text)
  | load (volume : ι)

variable (volumeForPath : Text → Except StandardError Text) (store : FileStagingStore S)

/-- The operations that do not look at the files use the volumes of the paths alone. -/
def volumeSource : CommitTraversalSource := ⟨fun _ => .ok none, volumeForPath⟩

def step (session : StagingSession ι S) : Action ι → StagingSession ι S
  | .exclusion volume edit =>
      session.withFiles volume (editExclusions qt (session.volumes volume).files edit)
  | .addEntries volume inspect paths kind =>
      session.withPage volume
        ((session.page volume).addEntries qt ⟨inspect, volumeForPath⟩ store paths kind).2
  | .removePaths volume paths =>
      session.withPage volume
        ((session.page volume).removePaths qt (volumeSource volumeForPath) store paths).2
  | .restorePaths volume paths =>
      session.withPage volume
        ((session.page volume).restorePaths qt (volumeSource volumeForPath) store paths).2
  | .load volume =>
      session.withPage volume ((session.page volume).load qt (volumeSource volumeForPath) store).2

end StagingSession

/-! ## Lists without repeated or covered paths -/

/-- No two entries have the same path, and none lies below a staged directory. -/
structure StagedApart (entries : List FileStagingEntry) : Prop where
  distinct : (entries.map fun entry => Paths.identity qt entry.path).Nodup
  uncovered : ∀ entry ∈ entries, isCoveredByParentDirectory qt entries entry.path = false

namespace StagedApart

variable {qt}

theorem iff_coversPath {entries : List FileStagingEntry} : StagedApart qt entries ↔
    (entries.map fun entry => Paths.identity qt entry.path).Nodup ∧
      ∀ entry ∈ entries, ∀ other ∈ entries, coversPath qt other entry.path = false := by
  constructor
  · rintro ⟨hdistinct, huncovered⟩
    refine ⟨hdistinct, fun entry hentry other hother => ?_⟩
    have hnone := huncovered entry hentry
    rw [isCoveredByParentDirectory, List.any_eq_false] at hnone
    simpa using hnone other hother
  · rintro ⟨hdistinct, huncovered⟩
    refine ⟨hdistinct, fun entry hentry => ?_⟩
    rw [isCoveredByParentDirectory, List.any_eq_false]
    intro other hother
    simp [huncovered entry hentry other hother]

theorem of_sublist {first second : List FileStagingEntry} (hsublist : first.Sublist second)
    (hapart : StagedApart qt second) : StagedApart qt first := by
  rw [iff_coversPath] at hapart ⊢
  exact ⟨hapart.1.sublist (hsublist.map _), fun entry hentry other hother =>
    hapart.2 entry (hsublist.mem hentry) other (hsublist.mem hother)⟩

theorem of_perm {first second : List FileStagingEntry} (hperm : first.Perm second)
    (hapart : StagedApart qt first) : StagedApart qt second := by
  rw [iff_coversPath] at hapart ⊢
  exact ⟨(hperm.map _).nodup hapart.1, fun entry hentry other hother =>
    hapart.2 entry (hperm.mem_iff.2 hentry) other (hperm.mem_iff.2 hother)⟩

theorem sortEntries {entries : List FileStagingEntry} (hapart : StagedApart qt entries) :
    StagedApart qt (UwfManager.sortEntries qt entries) :=
  hapart.of_perm (List.perm_insertionSort _ entries).symm

/-- An entry can be appended whose path is new and that neither covers nor is covered. -/
theorem append {entries : List FileStagingEntry} {entry : FileStagingEntry}
    (hapart : StagedApart qt entries)
    (hnew : ∀ other ∈ entries, Paths.identity qt other.path ≠ Paths.identity qt entry.path)
    (hfits : ∀ other ∈ entries, coversPath qt other entry.path = false ∧
      coversPath qt entry other.path = false) : StagedApart qt (entries ++ [entry]) := by
  rw [iff_coversPath] at hapart ⊢
  have hself : coversPath qt entry entry.path = false := by simp [coversPath]
  constructor
  · rw [List.map_append, List.map_singleton]
    refine List.Nodup.append hapart.1 (List.nodup_singleton _) ?_
    intro key hkey hentry
    obtain ⟨other, hother, rfl⟩ := List.mem_map.1 hkey
    exact hnew other hother (List.mem_singleton.1 hentry)
  · intro first hfirst second hsecond
    rcases List.mem_append.1 hfirst with hfirst | hfirst <;>
      rcases List.mem_append.1 hsecond with hsecond | hsecond
    · exact hapart.2 first hfirst second hsecond
    · rw [List.mem_singleton.1 hsecond]
      exact (hfits first hfirst).2
    · rw [List.mem_singleton.1 hfirst]
      exact (hfits second hsecond).1
    · rw [List.mem_singleton.1 hfirst, List.mem_singleton.1 hsecond]
      exact hself

end StagedApart

/-- After the entry with a path was erased no other entry has that path. -/
theorem identity_ne_of_mem_eraseP {entries : List FileStagingEntry} {path : Text}
    (hdistinct : (entries.map fun entry => Paths.identity qt entry.path).Nodup)
    {entry : FileStagingEntry} (hmem : entry ∈ entries.eraseP fun other =>
      Paths.identity qt other.path == Paths.identity qt path) :
    Paths.identity qt entry.path ≠ Paths.identity qt path := by
  induction entries with
  | nil => simp at hmem
  | cons first rest ih =>
      rw [List.map_cons, List.nodup_cons] at hdistinct
      by_cases hfirst : Paths.identity qt first.path = Paths.identity qt path
      · rw [List.eraseP_cons_of_pos (by simpa using hfirst)] at hmem
        intro hsame
        exact hdistinct.1 (List.mem_map.2 ⟨entry, hmem, hsame.trans hfirst.symm⟩)
      · rw [List.eraseP_cons_of_neg (by simpa using hfirst)] at hmem
        rcases List.mem_cons.1 hmem with rfl | hmem
        · exact hfirst
        · exact ih hdistinct.2 hmem

namespace FileStagingPage

variable {qt}

theorem insertEntry_apart {entries inserted : List FileStagingEntry} {kind : FileStagingKind}
    {path : Text} (hapart : StagedApart qt entries)
    (hinserted : insertEntry qt entries kind path = some inserted) : StagedApart qt inserted := by
  rw [insertEntry] at hinserted
  split_ifs at hinserted with hcovered hpresent hdirectory
  all_goals rw [Option.some.injEq] at hinserted; subst hinserted
  all_goals rw [Bool.not_eq_true, isCoveredByParentDirectory, List.any_eq_false] at hcovered
  · apply StagedApart.append
    · exact hapart.of_sublist (List.filter_sublist.trans (List.eraseP_sublist))
    · intro other hother
      exact identity_ne_of_mem_eraseP qt hapart.distinct (List.mem_filter.1 hother).1
    · intro other hother
      obtain ⟨hmem, hkept⟩ := List.mem_filter.1 hother
      refine ⟨by simpa using hcovered other (List.mem_of_mem_eraseP hmem), ?_⟩
      rw [Bool.not_eq_true'] at hkept
      simp [coversPath, hkept]
  · apply StagedApart.append
    · exact hapart.of_sublist (List.eraseP_sublist)
    · intro other hother
      exact identity_ne_of_mem_eraseP qt hapart.distinct hother
    · intro other hother
      refine ⟨by simpa using hcovered other (List.mem_of_mem_eraseP hother), ?_⟩
      simp [coversPath, hdirectory]

variable (source : CommitTraversalSource)

/-- Whatever one insertion keeps, an addition of many paths keeps. -/
theorem addPaths_preserves {Holds : List FileStagingEntry → Prop} (page : FileStagingPage S)
    (kind : FileStagingKind)
    (hinsert : ∀ {entries inserted path}, Holds entries →
      insertEntry qt entries kind path = some inserted → Holds inserted)
    (paths : List Text) {addition : Addition} (hholds : Holds addition.candidate) :
    Holds (paths.foldl (page.addPath qt source kind) addition).candidate := by
  induction paths generalizing addition with
  | nil => exact hholds
  | cons path rest ih =>
      apply ih
      rw [addPath]
      split_ifs
      · exact hholds
      · cases page.additionRejection qt source kind (Paths.normalize qt path) with
        | some rejection => exact hholds
        | none =>
            cases hinserted : insertEntry qt addition.candidate kind (Paths.normalize qt path) with
            | none => simpa [hinserted] using hholds
            | some candidate => simpa [hinserted] using hinsert hholds hinserted

theorem addPaths_apart (page : FileStagingPage S) (kind : FileStagingKind) (paths : List Text)
    {addition : Addition} (hapart : StagedApart qt addition.candidate) :
    StagedApart qt (paths.foldl (page.addPath qt source kind) addition).candidate :=
  addPaths_preserves source page kind insertEntry_apart paths hapart

theorem removePaths_sublist (paths : List Text) (entries : List FileStagingEntry) :
    (paths.foldl (removePath qt) entries).Sublist entries := by
  induction paths generalizing entries with
  | nil => exact List.Sublist.refl _
  | cons path rest ih => exact (ih _).trans List.filter_sublist

variable (qt) in
/-- No restored entry covers an entry of the list or is covered by one.  A
restoration that throws or meets a conflict restores nothing. -/
def RestoreFits (page : FileStagingPage S) (paths : List Text) : Prop :=
  page.draft.baselineKnown = true →
    (∀ restored ∈ page.baselineEntries qt source, qt.containsText paths restored.path = true →
      page.conflicts.bind (·.conflictingExclusion qt restored.path) = none) →
    ∀ restored ∈ page.baselineEntries qt source, qt.containsText paths restored.path = true →
      (∀ other ∈ page.draft.entries,
        Paths.identity qt other.path ≠ Paths.identity qt restored.path) →
      ∀ entry ∈ page.draft.entries,
        coversPath qt entry restored.path = false ∧ coversPath qt restored entry.path = false

instance (page : FileStagingPage S) (paths : List Text) :
    Decidable (page.RestoreFits qt source paths) := by
  unfold RestoreFits
  infer_instance

/-- A loop that reaches its end has met no conflict. -/
theorem restoreEntries_free {page : FileStagingPage S} {paths : List Text}
    {candidate pending restored : List FileStagingEntry}
    (hok : page.restoreEntries qt paths candidate pending = .ok restored) :
    ∀ entry ∈ pending, qt.containsText paths entry.path = true →
      page.conflicts.bind (·.conflictingExclusion qt entry.path) = none := by
  induction pending generalizing candidate with
  | nil => simp
  | cons first rest ih =>
      intro entry hentry hselected
      rw [restoreEntries] at hok
      split_ifs at hok with hfirst
      · rcases List.mem_cons.1 hentry with rfl | hrest
        · rw [hselected] at hfirst
          cases hfirst
        · exact ih hok entry hrest hselected
      · cases hconflict : page.conflicts.bind (·.conflictingExclusion qt first.path) with
        | some conflict =>
            rw [hconflict] at hok
            cases hok
        | none =>
            rw [hconflict] at hok
            rcases List.mem_cons.1 hentry with rfl | hrest
            · exact hconflict
            · exact ih hok entry hrest hselected

/-- The entries restored so far come from the baseline, where they are apart. -/
theorem restoreEntries_apart {page : FileStagingPage S} {paths : List Text}
    {baseline entries : List FileStagingEntry} (hbaseline : StagedApart qt baseline)
    {candidate pending restored : List FileStagingEntry}
    (hpending : ∀ entry ∈ pending, entry ∈ baseline)
    (hfits : ∀ entry ∈ pending, qt.containsText paths entry.path = true →
      (∀ other ∈ entries, Paths.identity qt other.path ≠ Paths.identity qt entry.path) →
      ∀ other ∈ entries,
        coversPath qt other entry.path = false ∧ coversPath qt entry other.path = false)
    (hcandidate : StagedApart qt candidate) (hkept : ∀ entry ∈ entries, entry ∈ candidate)
    (horigin : ∀ entry ∈ candidate, entry ∈ entries ∨ entry ∈ baseline)
    (hok : page.restoreEntries qt paths candidate pending = .ok restored) :
    StagedApart qt restored := by
  induction pending generalizing candidate with
  | nil =>
      rw [restoreEntries, Except.ok.injEq] at hok
      rwa [← hok]
  | cons first rest ih =>
      have hrest := fun entry hentry => hpending entry (List.mem_cons_of_mem first hentry)
      have hrestFits := fun entry hentry => hfits entry (List.mem_cons_of_mem first hentry)
      rw [restoreEntries] at hok
      split_ifs at hok with hfirst
      · exact ih hrest hrestFits hcandidate hkept horigin hok
      · rw [Bool.not_eq_true', Bool.not_eq_false] at hfirst
        cases hconflict : page.conflicts.bind (·.conflictingExclusion qt first.path) with
        | some conflict =>
            rw [hconflict] at hok
            cases hok
        | none =>
            rw [hconflict] at hok
            dsimp only at hok
            by_cases hpresent : candidate.any fun other =>
                Paths.identity qt other.path == Paths.identity qt first.path
            · rw [appendMissing, if_pos hpresent] at hok
              exact ih hrest hrestFits hcandidate hkept horigin hok
            · have hnew : ∀ other ∈ candidate,
                  Paths.identity qt other.path ≠ Paths.identity qt first.path := by
                simpa using hpresent
              have hmem : first ∈ baseline := hpending first List.mem_cons_self
              rw [appendMissing, if_neg hpresent] at hok
              refine ih hrest hrestFits (hcandidate.append hnew fun other hother => ?_)
                (fun entry hentry => List.mem_append_left _ (hkept entry hentry))
                (fun entry hentry => ?_) hok
              · rcases horigin other hother with hentry | hbase
                · exact hfits first List.mem_cons_self hfirst
                    (fun old hold => hnew old (hkept old hold)) other hentry
                · have hcovers := (StagedApart.iff_coversPath.1 hbaseline).2
                  exact ⟨hcovers first hmem other hbase, hcovers other hbase first hmem⟩
              · rcases List.mem_append.1 hentry with hold | hnew
                · exact horigin entry hold
                · rw [List.mem_singleton.1 hnew]
                  exact Or.inr hmem

theorem restorePaths_apart {page : FileStagingPage S} {paths : List Text}
    (hknown : page.draft.baselineKnown = true)
    (hbaseline : StagedApart qt page.draft.baseline) (hentries : StagedApart qt page.draft.entries)
    (hfits : page.RestoreFits qt source paths) :
    StagedApart qt (match page.restoreEntries qt paths page.draft.entries
        (page.baselineEntries qt source) with
      | .error _ => page.draft.entries
      | .ok candidate => candidate) := by
  cases hrestored : page.restoreEntries qt paths page.draft.entries
      (page.baselineEntries qt source) with
  | error conflict => exact hentries
  | ok candidate =>
      exact restoreEntries_apart hbaseline (fun entry hentry => (List.mem_filter.1 hentry).1)
        (hfits hknown (restoreEntries_free hrestored)) hentries (fun _ hentry => hentry)
        (fun _ hentry => Or.inl hentry) hrestored

end FileStagingPage

namespace StagingSession

variable {ι : Type*} [DecidableEq ι] (volumeForPath : Text → Except StandardError Text)
variable (store : FileStagingStore S)

/-- The action restores only entries that fit into the list. -/
def RestoresFit (session : StagingSession ι S) : Action ι → Prop
  | .restorePaths volume paths =>
      (session.page volume).RestoreFits qt (volumeSource volumeForPath) paths
  | _ => True

/-- The list has been read, and neither it nor the stored one repeats or covers a path. -/
structure ListsApart (session : StagingSession ι S) : Prop where
  loaded : session.draft.loaded = true
  baseline : StagedApart qt session.draft.baseline
  entries : StagedApart qt session.draft.entries

/-- An operation whose candidates are apart leaves the lists apart. -/
theorem listsApart_withPage {session : StagingSession ι S} (hsession : session.ListsApart qt)
    {volume : ι} {after : FileStagingPage S} {candidate : List FileStagingEntry}
    (hupdated : FileStagingPage.Updated qt candidate (session.page volume) after)
    (hcandidate : StagedApart qt candidate) : (session.withPage volume after).ListsApart qt := by
  have hdraft : after.draft = session.draft ∨
      after.draft = { session.draft with entries := sortEntries qt candidate } := by
    rcases hupdated.outcome with ⟨hsame, -⟩ | ⟨hdraft, -⟩
    · exact Or.inl hsame
    · exact hdraft
  rcases hdraft with hsame | hreplaced
  · refine ⟨?_, ?_, ?_⟩ <;> show _ <;> simp only [withPage, hsame]
    · exact hsession.loaded
    · exact hsession.baseline
    · exact hsession.entries
  · refine ⟨?_, ?_, ?_⟩ <;> show _ <;> simp only [withPage, hreplaced]
    · exact hsession.loaded
    · exact hsession.baseline
    · exact hcandidate.sortEntries

theorem listsApart_step {session : StagingSession ι S} (hsession : session.ListsApart qt)
    {action : Action ι} (hfits : session.RestoresFit qt volumeForPath action) :
    (session.step qt volumeForPath store action).ListsApart qt := by
  cases action with
  | exclusion volume edit => exact ⟨hsession.loaded, hsession.baseline, hsession.entries⟩
  | addEntries volume inspect paths kind =>
      exact listsApart_withPage qt hsession
        (FileStagingPage.addEntries_updated qt ⟨inspect, volumeForPath⟩ store hsession.loaded paths
          kind)
        (FileStagingPage.addPaths_apart _ _ kind paths hsession.entries)
  | removePaths volume paths =>
      exact listsApart_withPage qt hsession
        (FileStagingPage.removePaths_updated qt _ store hsession.loaded paths)
        (hsession.entries.of_sublist (FileStagingPage.removePaths_sublist paths _))
  | restorePaths volume paths =>
      by_cases hknown : session.draft.baselineKnown = true
      · exact listsApart_withPage qt hsession
          (FileStagingPage.restorePaths_updated qt _ store hsession.loaded paths)
          (FileStagingPage.restorePaths_apart _ hknown hsession.baseline hsession.entries hfits)
      · refine listsApart_withPage qt hsession ?_ hsession.entries
        rw [FileStagingPage.restorePaths_unknown qt _ store hsession.loaded hknown]
        exact FileStagingPage.Updated.refl qt _ _
  | load volume =>
      exact listsApart_withPage qt hsession
        (FileStagingPage.load_updated qt _ store hsession.loaded) hsession.entries

/-- In every state of a run whose restorations fit, no path is staged twice and
no entry lies below a staged directory. -/
theorem staged_apart {session : StagingSession ι S} (hsession : session.ListsApart qt)
    {actions : List (Action ι)}
    (hfits : GuardedRun.Guarded (step qt volumeForPath store) (RestoresFit qt volumeForPath) session
      actions)
    {front : List (Action ι)} (hfront : front <+: actions) :
    StagedApart qt (front.foldl (step qt volumeForPath store) session).draft.entries := by
  have hstep : ∀ (state : StagingSession ι S) (action : Action ι), ListsApart qt state →
      RestoresFit qt volumeForPath state action →
      ListsApart qt (step qt volumeForPath store state action) :=
    fun state action hstate hfit => listsApart_step qt volumeForPath store hstate hfit
  have hafter : ListsApart qt (front.foldl (step qt volumeForPath store) session) :=
    GuardedRun.preserved_of_prefix hstep hsession hfits hfront
  exact hafter.entries

end StagingSession

namespace StagingSession

/-- One volume with two files in the list, as it was stored. -/
def oneVolume : StagingSession Unit (List FileStagingEntry) where
  volumes _ := ⟨{ kind := .file, driveLetter := Drive.bind "Z:".toList, conflicts := some {} },
    { driveLetter := "Z:".toList }⟩
  draft := ⟨true, true, false, [⟨.file, "Z:\\d\\a".toList⟩, ⟨.file, "Z:\\e".toList⟩],
    [⟨.file, "Z:\\d\\a".toList⟩, ⟨.file, "Z:\\e".toList⟩]⟩
  stored := []

def onZ : Text → Except StandardError Text := fun _ => .ok "Z:".toList

def inspectFolder : CommitNode → Except StandardError (Option CommitNode) :=
  fun node => .ok (some { node with kind := .folder })

/-- A staged directory takes the place of a file below it, and another file comes back. -/
def directoryThenOther : List (Action Unit) :=
  [.removePaths () ["Z:\\e".toList], .addEntries () inspectFolder ["Z:\\d".toList] .directory,
    .restorePaths () ["Z:\\e".toList]]

theorem listsApart_oneVolume : oneVolume.ListsApart Qt.ascii := by
  have hlist : StagedApart Qt.ascii
      [⟨.file, "Z:\\d\\a".toList⟩, ⟨.file, "Z:\\e".toList⟩] :=
    ⟨by decide +kernel, by decide +kernel⟩
  exact ⟨rfl, hlist, hlist⟩

theorem staged_apart_directoryThenOther :
    StagedApart Qt.ascii
      (directoryThenOther.foldl (step Qt.ascii onZ StagingWorld.memoryStore) oneVolume).draft.entries := by
  have hfits : GuardedRun.Guarded (step Qt.ascii onZ StagingWorld.memoryStore) (RestoresFit Qt.ascii onZ) oneVolume
      directoryThenOther := by
    refine ⟨trivial, trivial, ?_, trivial⟩
    show FileStagingPage.RestoreFits Qt.ascii _ _ _
    decide +kernel
  exact staged_apart Qt.ascii onZ StagingWorld.memoryStore listsApart_oneVolume hfits List.prefix_rfl

/-- The file below the directory is the one that comes back. -/
def directoryThenCovered : List (Action Unit) :=
  [.addEntries () inspectFolder ["Z:\\d".toList] .directory,
    .restorePaths () ["Z:\\d\\a".toList]]

theorem not_staged_apart_directoryThenCovered :
    ¬StagedApart Qt.ascii
      (directoryThenCovered.foldl (step Qt.ascii onZ StagingWorld.memoryStore) oneVolume).draft.entries := by
  have hentries : (directoryThenCovered.foldl (step Qt.ascii onZ StagingWorld.memoryStore)
      oneVolume).draft.entries =
        [⟨.directory, "Z:\\d".toList⟩, ⟨.file, "Z:\\d\\a".toList⟩, ⟨.file, "Z:\\e".toList⟩] := by
    decide +kernel
  intro hapart
  have hcovered := hapart.uncovered ⟨.file, "Z:\\d\\a".toList⟩ (by rw [hentries]; simp)
  rw [hentries] at hcovered
  exact absurd hcovered (by decide +kernel)

end StagingSession

end UwfManager
