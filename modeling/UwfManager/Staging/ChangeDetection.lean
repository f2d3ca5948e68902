import UwfManager.Library.GuardedRun
import UwfManager.Staging.FileStagingCodec
import UwfManager.Staging.StagingSession

/-!
# Pending changes of the staging list

A draft has changes to write if the stored and the edited list differ in length or in their
keys, while the changes that are counted are the entries whose keys are missing in the other
list.  The two agree as long as no list names a path twice.
-/

namespace UwfManager

variable (qt : Qt)

/-! ## Counting changes -/

/-- The entries of the first list whose keys the second one does not have. -/
def difference (first second : List FileStagingEntry) : List FileStagingEntry :=
  first.filter fun entry => !(entryKeys qt second).contains (fileStagingEntryKey qt entry)

namespace FileStagingChanges

def added (changes : FileStagingChanges) : List FileStagingEntry :=
  difference qt changes.after changes.before

def removed (changes : FileStagingChanges) : List FileStagingEntry :=
  difference qt changes.before changes.after

def count (changes : FileStagingChanges) : ℕ :=
  let edits := (changes.added qt).length + (changes.removed qt).length
  if edits = 0 ∧ changes.persistencePending = true then 1 else edits

end FileStagingChanges

theorem difference_eq_nil {first second : List FileStagingEntry} :
    difference qt first second = [] ↔ ∀ key ∈ entryKeys qt first, key ∈ entryKeys qt second := by
  rw [difference, List.filter_eq_nil_iff]
  simp only [Bool.not_eq_true', Bool.not_eq_false, List.contains_iff_mem]
  exact List.forall_mem_map.symm

/-- The changes are counted as such exactly if the keys differ or a write is unfinished. -/
theorem count_pos_iff {changes : FileStagingChanges} :
    0 < changes.count qt ↔ changes.persistencePending = true ∨
      ¬∀ key, key ∈ entryKeys qt changes.before ↔ key ∈ entryKeys qt changes.after := by
  have hedits : (changes.added qt).length + (changes.removed qt).length = 0 ↔
      ∀ key, key ∈ entryKeys qt changes.before ↔ key ∈ entryKeys qt changes.after := by
    rw [Nat.add_eq_zero_iff, List.length_eq_zero_iff, List.length_eq_zero_iff,
      FileStagingChanges.added, FileStagingChanges.removed, difference_eq_nil, difference_eq_nil]
    exact ⟨fun hkeys key => ⟨hkeys.2 key, hkeys.1 key⟩,
      fun hkeys => ⟨fun key => (hkeys key).2, fun key => (hkeys key).1⟩⟩
  rw [← hedits, FileStagingChanges.count]
  generalize (changes.added qt).length + (changes.removed qt).length = edits
  cases changes.persistencePending with
  | false => simp [Nat.pos_iff_ne_zero]
  | true =>
      by_cases hnone : edits = 0
      · simp [hnone]
      · simp [hnone, Nat.pos_of_ne_zero hnone]

/-! ## Lists without repeated paths -/

def PathsDistinct (entries : List FileStagingEntry) : Prop :=
  (entries.map fun entry => Paths.identity qt entry.path).Nodup

instance (entries : List FileStagingEntry) : Decidable (PathsDistinct qt entries) :=
  inferInstanceAs (Decidable (List.Nodup _))

variable {qt}

theorem PathsDistinct.keys {entries : List FileStagingEntry} (hdistinct : PathsDistinct qt entries) :
    (entryKeys qt entries).Nodup := by
  have hpaths : entries.map (fun entry => Paths.identity qt entry.path) =
      (entryKeys qt entries).map Prod.snd := by
    rw [entryKeys, List.map_map]
    rfl
  rw [PathsDistinct, hpaths] at hdistinct
  exact hdistinct.of_map _

/-- Lists that name each path once are the same if their keys are. -/
theorem sameEntries_iff_keys {first second : List FileStagingEntry}
    (hfirst : PathsDistinct qt first) (hsecond : PathsDistinct qt second) :
    sameEntries qt first second = true ↔
      ∀ key, key ∈ entryKeys qt first ↔ key ∈ entryKeys qt second := by
  rw [sameEntries_iff]
  refine and_iff_right_of_imp fun hkeys => ?_
  have hperm : (entryKeys qt first).Perm (entryKeys qt second) :=
    (List.perm_ext_iff_of_nodup hfirst.keys hsecond.keys).2 hkeys
  have hlength := hperm.length_eq
  rwa [entryKeys, entryKeys, List.length_map, List.length_map] at hlength

/-! ## The draft -/

/-- The stored and the edited list name each path once. -/
structure FileStagingDraft.Distinct (qt : Qt) (draft : FileStagingDraft) : Prop where
  baseline : PathsDistinct qt draft.baseline
  entries : PathsDistinct qt draft.entries

/-- The list that a load hands over, if it hands over one, names each path once. -/
def HandsDistinct (qt : Qt) : Except Thrown (List FileStagingEntry) → Prop
  | .error _ => True
  | .ok entries => PathsDistinct qt entries

instance : DecidablePred (HandsDistinct qt)
  | .error _ => inferInstanceAs (Decidable True)
  | .ok entries => inferInstanceAs (Decidable (PathsDistinct qt entries))

namespace FileStagingDraft

/-- The number of pending changes that is shown. -/
def pendingCount (qt : Qt) (draft : FileStagingDraft) : ℕ :=
  ((draft.changes qt).map (·.count qt)).getD 0

theorem Distinct.changes_iff {draft : FileStagingDraft} (hdraft : draft.Distinct qt)
    (hloaded : draft.loaded = true) :
    (draft.changes qt).isSome = true ↔
      0 < (⟨draft.baseline, draft.entries, draft.persistencePending⟩ : FileStagingChanges).count qt := by
  rw [changes_isSome_iff, count_pos_iff, and_iff_right hloaded, ← Bool.not_eq_true,
    sameEntries_iff_keys hdraft.baseline hdraft.entries]

theorem Distinct.pendingCount_iff {draft : FileStagingDraft} (hdraft : draft.Distinct qt) :
    (draft.changes qt).isSome = true ↔ 0 < draft.pendingCount qt := by
  rw [pendingCount]
  cases hchanges : draft.changes qt with
  | none => simp
  | some changes =>
      have hsome : (draft.changes qt).isSome = true := by rw [hchanges]; rfl
      have hloaded := ((changes_isSome_iff qt).1 hsome).1
      have hcount := (hdraft.changes_iff hloaded).1 hsome
      rw [FileStagingDraft.changes] at hchanges
      split_ifs at hchanges
      cases hchanges
      exact iff_of_true rfl hcount

variable {S : Type*} {store : FileStagingStore S} {draft : FileStagingDraft}

/-- Only a draft that is not loaded yet is handed a list. -/
theorem ensureLoaded_distinct (hdraft : draft.Distinct qt) {state : S}
    (hfirst : draft.loaded = false → HandsDistinct qt (store.load state).1) :
    (draft.ensureLoaded store state).2.1.Distinct qt := by
  rw [ensureLoaded]
  split_ifs with hloaded
  · exact hdraft
  · have hentries := hfirst (Bool.not_eq_true _ ▸ hloaded)
    revert hentries
    rcases store.load state with ⟨thrown | entries, after⟩
    · exact fun _ => hdraft
    · exact fun hentries => ⟨hentries, hentries⟩

/-- What is loaded are the entries of the draft, which is a loaded one then. -/
theorem load_distinct (hdraft : draft.Distinct qt) {state : S}
    (hfirst : draft.loaded = false → HandsDistinct qt (store.load state).1) :
    (draft.load store state).2.1.Distinct qt ∧
      ∀ entries, (draft.load store state).1 = .ok entries →
        PathsDistinct qt entries ∧ (draft.load store state).2.1.loaded = true := by
  have hensured := ensureLoaded_distinct hdraft hfirst
  have hloaded := @loaded_of_ensureLoaded S store draft state
  rw [load]
  revert hensured hloaded
  rcases draft.ensureLoaded store state with ⟨thrown | _, ensured, after⟩
  · exact fun hensured _ => ⟨hensured, by rintro _ ⟨⟩⟩
  · intro hensured hloaded
    dsimp only at hensured hloaded ⊢
    split_ifs
    · refine ⟨hensured, fun entries hentries => ?_⟩
      cases hentries
      exact ⟨hensured.entries, hloaded rfl⟩
    · exact ⟨hensured, by rintro _ ⟨⟩⟩

theorem reload_distinct (hdraft : draft.Distinct qt) {state : S}
    (hstore : HandsDistinct qt (store.load state).1) :
    (draft.reload store state).2.1.Distinct qt := by
  rw [reload]
  revert hstore
  rcases store.load state with ⟨thrown | entries, after⟩
  · exact fun _ => hdraft
  · exact fun hentries => ⟨hentries, hentries⟩

theorem reconcile_distinct (hdraft : draft.Distinct qt) {state : S}
    (hstore : HandsDistinct qt (store.load state).1) :
    (draft.reconcile store state).2.1.Distinct qt := by
  rw [reconcile]
  revert hstore
  rcases store.load state with ⟨thrown | entries, after⟩
  · exact fun _ => hdraft
  · exact fun hentries => ⟨hentries, hdraft.entries⟩

theorem prepareWrite_distinct (hdraft : draft.Distinct qt) {state : S}
    (hfirst : draft.loaded = false → HandsDistinct qt (store.load state).1)
    (edits : FileStagingChanges) : (draft.prepareWrite qt store edits state).2.1.Distinct qt := by
  have hloaded := ensureLoaded_distinct hdraft hfirst
  rw [prepareWrite]
  revert hloaded
  rcases draft.ensureLoaded store state with ⟨thrown | _, loaded, after⟩
  · exact fun hloaded => hloaded
  · intro hloaded
    dsimp only at hloaded ⊢
    split_ifs <;> exact hloaded

theorem observeFailure_distinct {state : S} (hstore : HandsDistinct qt (store.load state).1)
    (thrown : Thrown) :
    ∀ observed ∈ (observeFailure store thrown state).1.observed, PathsDistinct qt observed := by
  rw [observeFailure]
  revert hstore
  rcases store.load state with ⟨failure | entries, after⟩
  · exact fun _ => (by rintro _ ⟨⟩)
  · intro hentries observed hobserved
    cases hobserved
    exact hentries

/-- What the loads of a write answer: before the list is written, and twice behind it. -/
def writeAnswers (store : FileStagingStore S) (after : List FileStagingEntry) (state : S) :
    List (Except Thrown (List FileStagingEntry)) :=
  let current := store.load state
  let written := store.replace after current.2
  let read := store.load written.2
  [current.1, read.1, (store.load read.2).1]

/-- What a write has read back is a list of the store. -/
theorem performWrite_distinct {edits : FileStagingChanges} {state : S}
    (hstore : ∀ answer ∈ writeAnswers store edits.after state, HandsDistinct qt answer) :
    ∀ observed ∈ (performWrite qt store edits state).1.observed, PathsDistinct qt observed := by
  rw [writeAnswers, List.forall_mem_cons, List.forall_mem_cons, List.forall_mem_singleton]
    at hstore
  obtain ⟨-, hread, hagain⟩ := hstore
  rw [performWrite]
  revert hread hagain
  rcases store.load state with ⟨thrown | current, loaded⟩
  · exact fun _ _ => (by rintro _ ⟨⟩)
  dsimp only
  split_ifs
  · exact fun _ _ => (by rintro _ ⟨⟩)
  rcases store.replace edits.after loaded with ⟨thrown | _, written⟩
  · exact fun hread _ => observeFailure_distinct hread thrown
  dsimp only
  rcases store.load written with ⟨thrown | entries, read⟩
  · exact fun _ hagain => observeFailure_distinct hagain thrown
  · intro hread hagain
    dsimp only
    split_ifs
    · intro observed hobserved
      cases hobserved
      exact hread
    · exact observeFailure_distinct hagain savedListDiffers

theorem acceptWrite_distinct (hdraft : draft.Distinct qt) {result : FileStagingWriteResult}
    (hobserved : ∀ observed ∈ result.observed, PathsDistinct qt observed) :
    (draft.acceptWrite result).Distinct qt := by
  rw [acceptWrite]
  split_ifs
  · refine ⟨?_, hdraft.entries⟩
    cases hresult : result.observed with
    | none => exact hdraft.baseline
    | some observed => exact hobserved observed hresult
  · exact hdraft

end FileStagingDraft

/-! ## The editors -/

theorem PathsDistinct.sortEntries {entries : List FileStagingEntry}
    (hdistinct : PathsDistinct qt entries) : PathsDistinct qt (sortEntries qt entries) :=
  ((List.perm_insertionSort _ entries).map _).nodup_iff.2 hdistinct

/-- An entry with a new path can be appended. -/
theorem PathsDistinct.append {entries : List FileStagingEntry} {entry : FileStagingEntry}
    (hdistinct : PathsDistinct qt entries)
    (hnew : ∀ other ∈ entries, Paths.identity qt other.path ≠ Paths.identity qt entry.path) :
    PathsDistinct qt (entries ++ [entry]) := by
  rw [PathsDistinct, List.map_append, List.map_singleton]
  refine List.Nodup.append hdistinct (List.nodup_singleton _) ?_
  intro path hpath hentry
  obtain ⟨other, hother, rfl⟩ := List.mem_map.1 hpath
  exact hnew other hother (List.mem_singleton.1 hentry)

namespace FileStagingPage

theorem insertEntry_distinct {entries inserted : List FileStagingEntry} {kind : FileStagingKind}
    {path : Text} (hdistinct : PathsDistinct qt entries)
    (hinserted : insertEntry qt entries kind path = some inserted) : PathsDistinct qt inserted := by
  rw [insertEntry] at hinserted
  split_ifs at hinserted with hcovered hpresent hdirectory
  all_goals
    rw [Option.some.injEq] at hinserted
    subst hinserted
  · apply PathsDistinct.append
    · exact hdistinct.sublist ((List.filter_sublist.trans List.eraseP_sublist).map _)
    · intro other hother
      exact identity_ne_of_mem_eraseP qt hdistinct (List.mem_filter.1 hother).1
  · apply PathsDistinct.append
    · exact hdistinct.sublist (List.eraseP_sublist.map _)
    · intro other hother
      exact identity_ne_of_mem_eraseP qt hdistinct hother

variable {S : Type*} {source : CommitTraversalSource} {store : FileStagingStore S}
  {page : FileStagingPage S}

theorem addPaths_distinct (kind : FileStagingKind) (paths : List Text) {addition : Addition}
    (hdistinct : PathsDistinct qt addition.candidate) :
    PathsDistinct qt (paths.foldl (page.addPath qt source kind) addition).candidate :=
  addPaths_preserves source page kind insertEntry_distinct paths hdistinct

theorem appendMissing_distinct {candidate : List FileStagingEntry}
    (hdistinct : PathsDistinct qt candidate) (entry : FileStagingEntry) :
    PathsDistinct qt (appendMissing qt candidate entry) := by
  rw [appendMissing]
  split_ifs with hknown
  · exact hdistinct
  · apply hdistinct.append
    rw [Bool.not_eq_true, List.any_eq_false] at hknown
    intro other hother hsame
    exact hknown other hother (beq_iff_eq.2 hsame)

theorem restoreEntries_distinct {paths : List Text} {baseline candidate restored : List FileStagingEntry}
    (hdistinct : PathsDistinct qt candidate)
    (hrestored : page.restoreEntries qt paths candidate baseline = .ok restored) :
    PathsDistinct qt restored := by
  induction baseline generalizing candidate with
  | nil =>
      cases hrestored
      exact hdistinct
  | cons entry rest ih =>
      rw [restoreEntries] at hrestored
      split_ifs at hrestored
      · exact ih hdistinct hrestored
      · cases hconflict : page.conflicts.bind (·.conflictingExclusion qt entry.path) with
        | some conflict =>
            rw [hconflict] at hrestored
            cases hrestored
        | none =>
            rw [hconflict] at hrestored
            exact ih (appendMissing_distinct hdistinct entry) hrestored

/-- Loading keeps the draft distinct and returns a distinct list. -/
theorem loadDraft_distinct (hpage : page.draft.Distinct qt)
    (hfirst : page.draft.loaded = false → HandsDistinct qt (store.load page.stored).1) :
    (page.loadDraft store).2.draft.Distinct qt ∧
      ∀ entries, (page.loadDraft store).1 = .ok entries →
        PathsDistinct qt entries ∧ (page.loadDraft store).2.draft.loaded = true :=
  FileStagingDraft.load_distinct hpage hfirst

/-- A draft that is loaded is handed no other list. -/
theorem updateDraft_distinct (hloaded : page.draft.loaded = true)
    (hpage : page.draft.Distinct qt) {entries : List FileStagingEntry}
    (hentries : PathsDistinct qt entries) :
    (page.updateDraft qt source store entries).2.draft.Distinct qt := by
  obtain ⟨-, ⟨hdraft, -⟩ | ⟨hdraft | hdraft, -⟩⟩ :=
    updateDraft_updated qt source store hloaded entries
  · rw [hdraft]
    exact hpage
  · rw [hdraft]
    exact hpage
  · rw [hdraft]
    exact ⟨hpage.baseline, hentries.sortEntries⟩

theorem addEntries_distinct (hpage : page.draft.Distinct qt)
    (hfirst : page.draft.loaded = false → HandsDistinct qt (store.load page.stored).1)
    (paths : List Text) (kind : FileStagingKind) :
    (page.addEntries qt source store paths kind).2.draft.Distinct qt := by
  have hloaded := loadDraft_distinct hpage hfirst
  rw [addEntries]
  revert hloaded
  rcases page.loadDraft store with ⟨(error | _) | entries, loaded⟩
  · exact fun hloaded => hloaded.1
  · exact fun hloaded => hloaded.1
  · intro hloaded
    have hcandidate := @addPaths_distinct qt S source loaded kind paths { candidate := entries }
      (hloaded.2 entries rfl).1
    dsimp only at hloaded ⊢
    revert hcandidate
    generalize paths.foldl (loaded.addPath qt source kind) { candidate := entries } = addition
    intro hcandidate
    have hsignaled : ({ loaded with
        signals := loaded.signals ++ addition.rejections.map .pathRejected } :
          FileStagingPage S).draft.Distinct qt := hloaded.1
    have hafter : ({ loaded with
        signals := loaded.signals ++ addition.rejections.map .pathRejected } :
          FileStagingPage S).draft.loaded = true := (hloaded.2 entries rfl).2
    split_ifs
    · exact updateDraft_distinct hafter hsignaled hcandidate
    · exact hloaded.1

theorem removePaths_distinct (hpage : page.draft.Distinct qt)
    (hfirst : page.draft.loaded = false → HandsDistinct qt (store.load page.stored).1)
    (paths : List Text) : (page.removePaths qt source store paths).2.draft.Distinct qt := by
  have hloaded := loadDraft_distinct hpage hfirst
  rw [removePaths]
  split_ifs
  · exact hpage
  revert hloaded
  rcases page.loadDraft store with ⟨(error | _) | entries, loaded⟩
  · exact fun hloaded => hloaded.1
  · exact fun hloaded => hloaded.1
  · intro hloaded
    obtain ⟨hentries, hafter⟩ := hloaded.2 entries rfl
    have hcandidate : PathsDistinct qt (paths.foldl (removePath qt) entries) :=
      hentries.sublist ((removePaths_sublist paths entries).map _)
    dsimp only at hloaded ⊢
    split_ifs
    · exact updateDraft_distinct hafter hloaded.1 hcandidate
    · exact hloaded.1

theorem restorePaths_distinct (hpage : page.draft.Distinct qt)
    (hfirst : page.draft.loaded = false → HandsDistinct qt (store.load page.stored).1)
    (paths : List Text) : (page.restorePaths qt source store paths).2.draft.Distinct qt := by
  have hloaded := loadDraft_distinct hpage hfirst
  rw [restorePaths]
  revert hloaded
  rcases page.loadDraft store with ⟨thrown | entries, loaded⟩
  · exact fun hloaded => hloaded.1
  · intro hloaded
    obtain ⟨hentries, hafter⟩ := hloaded.2 entries rfl
    dsimp only at hloaded ⊢
    cases hrestored : loaded.restoreEntries qt paths entries (loaded.baselineEntries qt source) with
    | error conflict => exact hloaded.1
    | ok candidate =>
        exact updateDraft_distinct hafter hloaded.1 (restoreEntries_distinct hentries hrestored)

theorem load_keeps_distinct (hpage : page.draft.Distinct qt)
    (hfirst : page.draft.loaded = false → HandsDistinct qt (store.load page.stored).1) :
    (page.load qt source store).2.draft.Distinct qt := by
  have hloaded := (loadDraft_distinct hpage hfirst).1
  rw [load]
  revert hloaded
  rcases page.loadDraft store with ⟨(error | _) | entries, loaded⟩
  · exact fun hloaded => hloaded
  · exact fun hloaded => hloaded
  · intro hloaded
    dsimp only at hloaded ⊢
    split_ifs <;> exact hloaded

end FileStagingPage

/-! ## Runs of the editors and of the writes -/

/-- The editors of the volumes, the draft they share, its store and the writes in flight. -/
structure StagingDesk (ι S : Type*) where
  volumes : ι → StagingVolume
  world : StagingWorld S

namespace StagingDesk

variable {ι S : Type*}

def session (desk : StagingDesk ι S) : StagingSession ι S :=
  ⟨desk.volumes, desk.world.draft, desk.world.state⟩

/-- The lists of a draft are edited through the editors alone. -/
inductive Action (ι S : Type*) where
  | edit (action : StagingSession.Action ι)
  | reload
  | reconcile
  | prepare (edits : FileStagingChanges)
  | write (index : ℕ)
  | accept (index : ℕ)
  | external (state : S)

variable [DecidableEq ι] (qt : Qt) (volumeForPath : Text → Except StandardError Text)
  (store : FileStagingStore S)

def step (desk : StagingDesk ι S) : Action ι S → StagingDesk ι S
  | .edit action =>
      let session := desk.session.step qt volumeForPath store action
      { volumes := session.volumes
        world := { desk.world with draft := session.draft, state := session.stored } }
  | .reload => { desk with world := desk.world.step qt store .reload }
  | .reconcile => { desk with world := desk.world.step qt store .reconcile }
  | .prepare edits => { desk with world := desk.world.step qt store (.prepare edits) }
  | .write index => { desk with world := desk.world.step qt store (.write index) }
  | .accept index => { desk with world := desk.world.step qt store (.accept index) }
  | .external state => { desk with world := desk.world.step qt store (.external state) }

/-- What the loads of a step answer.  A draft that is loaded is not loaded again by an
edit or by the preparation of a write. -/
def answers (desk : StagingDesk ι S) : Action ι S → List (Except Thrown (List FileStagingEntry))
  | .edit (.exclusion _ _) => []
  | .edit _ | .prepare _ =>
      if desk.world.draft.loaded then [] else [(store.load desk.world.state).1]
  | .reload | .reconcile => [(store.load desk.world.state).1]
  | .write index =>
      match desk.world.prepared[index]? with
      | none => []
      | some edits => FileStagingDraft.writeAnswers store edits.after desk.world.state
  | .accept _ | .external _ => []

/-- No list that the store hands over in this step names a path twice. -/
def HandedDistinct (desk : StagingDesk ι S) (action : Action ι S) : Prop :=
  ∀ answer ∈ desk.answers store action, HandsDistinct qt answer

instance (desk : StagingDesk ι S) (action : Action ι S) :
    Decidable (HandedDistinct qt store desk action) :=
  inferInstanceAs (Decidable (∀ answer ∈ desk.answers store action, HandsDistinct qt answer))

/-- New editors and a new draft over a store. -/
def initial (volumes : ι → StagingVolume) (state : S) : StagingDesk ι S :=
  ⟨volumes, StagingWorld.initial state⟩

/-- The draft and all lists that writes have read back name each path once. -/
structure Distinct (desk : StagingDesk ι S) : Prop where
  draft : desk.world.draft.Distinct qt
  finished : ∀ finished ∈ desk.world.finished, ∀ observed ∈ finished.2.observed,
    PathsDistinct qt observed

variable {qt volumeForPath store}

omit [DecidableEq ι] in
/-- The list of the first load is among the answers. -/
theorem first_of_answers {desk : StagingDesk ι S}
    {P : Except Thrown (List FileStagingEntry) → Prop}
    (hanswers : ∀ answer ∈ if desk.world.draft.loaded then []
      else [(store.load desk.world.state).1], P answer) (hfirst : desk.world.draft.loaded = false) :
    P (store.load desk.world.state).1 := by
  rw [hfirst, if_neg Bool.false_ne_true] at hanswers
  exact hanswers _ List.mem_cons_self

theorem step_distinct {desk : StagingDesk ι S} (hdesk : desk.Distinct qt) {action : Action ι S}
    (hhanded : desk.HandedDistinct qt store action) :
    (desk.step qt volumeForPath store action).Distinct qt := by
  obtain ⟨hdraft, hfinished⟩ := hdesk
  cases action with
  | edit action =>
      refine ⟨?_, hfinished⟩
      cases action with
      | exclusion volume edit => exact hdraft
      | addEntries volume inspect paths kind =>
          exact FileStagingPage.addEntries_distinct hdraft (first_of_answers hhanded) paths kind
      | removePaths volume paths =>
          exact FileStagingPage.removePaths_distinct hdraft (first_of_answers hhanded) paths
      | restorePaths volume paths =>
          exact FileStagingPage.restorePaths_distinct hdraft (first_of_answers hhanded) paths
      | load volume =>
          exact FileStagingPage.load_keeps_distinct hdraft (first_of_answers hhanded)
  | reload =>
      exact ⟨FileStagingDraft.reload_distinct hdraft (hhanded _ List.mem_cons_self), hfinished⟩
  | reconcile =>
      exact ⟨FileStagingDraft.reconcile_distinct hdraft (hhanded _ List.mem_cons_self), hfinished⟩
  | prepare edits =>
      exact ⟨FileStagingDraft.prepareWrite_distinct hdraft (first_of_answers hhanded) edits,
        hfinished⟩
  | write index =>
      rw [HandedDistinct, answers] at hhanded
      rw [step, StagingWorld.step]
      cases hprepared : desk.world.prepared[index]? with
      | none => exact ⟨hdraft, hfinished⟩
      | some edits =>
          rw [hprepared] at hhanded
          refine ⟨hdraft, fun finished hmem => ?_⟩
          rcases List.mem_append.1 hmem with hold | hnew
          · exact hfinished finished hold
          · rw [List.mem_singleton.1 hnew]
            exact FileStagingDraft.performWrite_distinct hhanded
  | accept index =>
      rw [step, StagingWorld.step]
      cases hget : desk.world.finished[index]? with
      | none => exact ⟨hdraft, hfinished⟩
      | some finished =>
          exact ⟨FileStagingDraft.acceptWrite_distinct hdraft
            (hfinished finished (List.mem_of_getElem? hget)), hfinished⟩
  | external state => exact ⟨hdraft, hfinished⟩

omit [DecidableEq ι] in
theorem initial_distinct (volumes : ι → StagingVolume) (state : S) :
    (initial volumes state).Distinct qt :=
  ⟨⟨List.nodup_nil, List.nodup_nil⟩, by rintro _ ⟨⟩⟩

/-- As long as no list that the run is handed names a path twice: in every state there
is a list to write exactly if a pending change is shown, and a loaded draft has one exactly
if its lists differ in an entry or a write is unfinished. -/
theorem changes_shown (volumes : ι → StagingVolume) (state : S) {actions : List (Action ι S)}
    (hguarded : GuardedRun.Guarded (step qt volumeForPath store) (HandedDistinct qt store)
      (initial volumes state) actions) :
    let draft := (actions.foldl (step qt volumeForPath store) (initial volumes state)).world.draft
    ((draft.changes qt).isSome = true ↔ 0 < draft.pendingCount qt) ∧
      (draft.loaded = true → ((draft.changes qt).isSome = true ↔
        0 < (⟨draft.baseline, draft.entries, draft.persistencePending⟩ : FileStagingChanges).count
          qt)) := by
  intro draft
  have hrun : (actions.foldl (step qt volumeForPath store) (initial volumes state)).Distinct qt :=
    @GuardedRun.preserved _ _ (step qt volumeForPath store) (HandedDistinct qt store) (Distinct qt)
      (fun _ _ hdesk hhanded => step_distinct hdesk hhanded) _ _ (initial_distinct volumes state)
      hguarded
  have hdraft : draft.Distinct qt := hrun.draft
  exact ⟨hdraft.pendingCount_iff, hdraft.changes_iff⟩

def volumeZ : Unit → StagingVolume := StagingSession.oneVolume.volumes

/-- The path is removed, the shorter list is written to a store that keeps any list, another
program writes the path back, and it is restored. -/
theorem changes_shown_restored :
    let stored : List FileStagingEntry := [⟨.file, "Z:\\a".toList⟩]
    let actions : List (Action Unit (List FileStagingEntry)) :=
      [.edit (.removePaths () ["Z:\\a".toList]), .prepare ⟨stored, [], false⟩, .write 0,
        .accept 0, .external stored, .reconcile, .edit (.restorePaths () ["Z:\\a".toList])]
    let draft := (actions.foldl (step Qt.ascii StagingSession.onZ StagingWorld.memoryStore)
      (initial volumeZ stored)).world.draft
    draft.entries = stored ∧ ((draft.changes Qt.ascii).isSome = true ↔
      0 < draft.pendingCount Qt.ascii) := by
  intro stored actions draft
  have hguarded : GuardedRun.Guarded (step Qt.ascii StagingSession.onZ StagingWorld.memoryStore)
      (HandedDistinct Qt.ascii StagingWorld.memoryStore) (initial volumeZ stored) actions := by
    decide +kernel
  exact ⟨by decide +kernel, (changes_shown volumeZ stored hguarded).1⟩

/-! ## A stored list with a repeated entry -/

/-- A store that cannot be written. -/
def fixedStore (entries : List FileStagingEntry) : FileStagingStore Unit where
  load state := (.ok entries, state)
  replace _ state := (.error .other, state)

/-- The path is removed and restored. -/
def removeAndRestore : List (Action Unit Unit) :=
  [.edit (.removePaths () ["Z:\\a".toList]), .edit (.restorePaths () ["Z:\\a".toList])]

/-- `F|Z:\a` -/
def record : List UInt8 := [0x46, 0x7c, 0x5a, 0x3a, 0x5c, 0x61]

/-- A list is decoded that names a path twice; once the path was removed and restored there
is a list to write but no change to show. -/
theorem repeated_entry_hides_change :
    let entries : List FileStagingEntry := [⟨.file, "Z:\\a".toList⟩, ⟨.file, "Z:\\a".toList⟩]
    let draft := (removeAndRestore.foldl (step Qt.ascii StagingSession.onZ (fixedStore entries))
      (initial volumeZ ())).world.draft
    (FileStagingCodec.decodeFileStagingEntries [record, record]).toOption.map
        (List.map FileStagingCodec.Entry.toText) = some entries ∧
      (draft.changes Qt.ascii).isSome = true ∧ draft.pendingCount Qt.ascii = 0 ∧
      ¬((draft.changes Qt.ascii).isSome = true ↔ 0 < draft.pendingCount Qt.ascii) := by
  decide +kernel

end StagingDesk

end UwfManager
