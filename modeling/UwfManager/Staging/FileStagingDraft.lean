import UwfManager.Library.GuardedRun
import UwfManager.Paths.PathPolicy

/-!
# The draft of the file staging list

All volumes edit one draft in memory; only an accepted plan replaces the
stored list.  The store may throw before or after it wrote, and somebody else
may write it at any time.  The file models the draft and its write protocol
over an arbitrary store and proves what holds in every interleaving.
-/

namespace UwfManager

/-! ## Exceptions -/

inductive WriteEffect where
  | none
  | confirmed
  | uncertain
  deriving DecidableEq, Repr

/-- A `std::exception`; an `OperationError` also reports its write effect. -/
structure StandardError where
  what : Text
  writeEffect : Option WriteEffect := .none
  deriving DecidableEq

inductive Thrown where
  | standard (error : StandardError)
  | other
  deriving DecidableEq

/-! ## Entries -/

inductive FileStagingKind where
  | file
  | directory
  deriving DecidableEq, Repr

structure FileStagingEntry where
  kind : FileStagingKind
  path : Text
  deriving DecidableEq

structure FileStagingChanges where
  before : List FileStagingEntry
  after : List FileStagingEntry
  persistencePending : Bool := false
  deriving DecidableEq

structure FileStagingWriteResult where
  observed : Option (List FileStagingEntry) := none
  failure : Option Thrown := none
  attempted : Bool := false
  deriving DecidableEq

section Entries

variable (qt : Qt)

def fileStagingEntryKey (entry : FileStagingEntry) : FileStagingKind × Text :=
  (entry.kind, Paths.identity qt entry.path)

def entryKeys (entries : List FileStagingEntry) : List (FileStagingKind × Text) :=
  entries.map (fileStagingEntryKey qt)

/-- The lists have the same length and the same set of keys. -/
def sameEntries (first second : List FileStagingEntry) : Bool :=
  first.length == second.length &&
    ((entryKeys qt first).all (entryKeys qt second).contains &&
      (entryKeys qt second).all (entryKeys qt first).contains)

theorem sameEntries_iff {first second : List FileStagingEntry} :
    sameEntries qt first second = true ↔
      first.length = second.length ∧
        ∀ key, key ∈ entryKeys qt first ↔ key ∈ entryKeys qt second := by
  simp only [sameEntries, Bool.and_eq_true, beq_iff_eq, List.all_eq_true,
    List.contains_iff_mem]
  exact and_congr_right fun _ => ⟨fun h key => ⟨h.1 key, h.2 key⟩,
    fun h => ⟨fun key => (h key).1, fun key => (h key).2⟩⟩

theorem sameEntries_symm {first second : List FileStagingEntry}
    (hsame : sameEntries qt first second = true) : sameEntries qt second first = true := by
  rw [sameEntries_iff] at hsame ⊢
  exact ⟨hsame.1.symm, fun key => (hsame.2 key).symm⟩

theorem sameEntries_trans {first second third : List FileStagingEntry}
    (hfirst : sameEntries qt first second = true)
    (hsecond : sameEntries qt second third = true) : sameEntries qt first third = true := by
  rw [sameEntries_iff] at hfirst hsecond ⊢
  exact ⟨hfirst.1.trans hsecond.1, fun key => (hfirst.2 key).trans (hsecond.2 key)⟩

end Entries

/-! ## The store -/

/-- The registry key under which the list is stored. -/
def fileStagingRegistryRoot : Text := "HKEY_LOCAL_MACHINE\\SOFTWARE\\HsingYun\\UWF Manager".toList

/-- A store of entries with states of any kind.  Both calls may throw, and what
they leave behind is up to the store. -/
structure FileStagingStore (S : Type*) where
  load : S → Except Thrown (List FileStagingEntry) × S
  replace : List FileStagingEntry → S → Except Thrown Unit × S

/-- A load that returns tells what is stored, and no load changes it. -/
structure FileStagingStore.Reads {S : Type*} (store : FileStagingStore S)
    (content : S → List FileStagingEntry) : Prop where
  returned : ∀ state entries, (store.load state).1 = .ok entries → entries = content state
  unchanged : ∀ state, content (store.load state).2 = content state

/-! ## The draft -/

structure FileStagingDraft where
  loaded : Bool := false
  baselineKnown : Bool := true
  persistencePending : Bool := false
  baseline : List FileStagingEntry := []
  entries : List FileStagingEntry := []
  deriving DecidableEq

namespace FileStagingDraft

variable {S : Type*} (qt : Qt) (store : FileStagingStore S)

def baselineUnknown : Thrown :=
  .standard ⟨"Review the operation details. Read the current system state before retrying changes that may have been written.".toList, none⟩

def draftChanged : Thrown :=
  .standard ⟨"The file staging draft changed after this plan was opened. Review a new plan.".toList, none⟩

def savedListChanged : Thrown :=
  .standard ⟨"The saved file staging list changed after this plan was opened. Refresh and review the changes.".toList, none⟩

def savedListDiffers : Thrown :=
  .standard ⟨"The saved file staging list does not match the accepted plan.".toList, none⟩

def ensureLoaded (draft : FileStagingDraft) (state : S) :
    Except Thrown Unit × FileStagingDraft × S :=
  if draft.loaded then (.ok (), draft, state)
  else
    match store.load state with
    | (.error thrown, state) => (.error thrown, draft, state)
    | (.ok entries, state) =>
        (.ok (), { draft with loaded := true, baseline := entries, entries := entries }, state)

def load (draft : FileStagingDraft) (state : S) :
    Except Thrown (List FileStagingEntry) × FileStagingDraft × S :=
  match ensureLoaded store draft state with
  | (.error thrown, draft, state) => (.error thrown, draft, state)
  | (.ok (), draft, state) =>
      if draft.baselineKnown then (.ok draft.entries, draft, state)
      else (.error baselineUnknown, draft, state)

def replace (draft : FileStagingDraft) (entries : List FileStagingEntry) (state : S) :
    Except Thrown Unit × FileStagingDraft × S :=
  match load store draft state with
  | (.error thrown, draft, state) => (.error thrown, draft, state)
  | (.ok _, draft, state) =>
      if sameEntries qt draft.entries entries then (.ok (), draft, state)
      else (.ok (), { draft with entries := entries }, state)

def changes (draft : FileStagingDraft) : Option FileStagingChanges :=
  if !draft.loaded || !draft.persistencePending && sameEntries qt draft.baseline draft.entries
  then none
  else some ⟨draft.baseline, draft.entries, draft.persistencePending⟩

/-- Discards the edits and the unfinished persistence work. -/
def reload (draft : FileStagingDraft) (state : S) :
    Except Thrown Unit × FileStagingDraft × S :=
  match store.load state with
  | (.error thrown, state) => (.error thrown, draft, state)
  | (.ok entries, state) =>
      (.ok (), ⟨true, true, false, entries, entries⟩, state)

/-- Reads the stored list again and keeps the edits. -/
def reconcile (draft : FileStagingDraft) (state : S) :
    Except Thrown Unit × FileStagingDraft × S :=
  match store.load state with
  | (.error thrown, state) => (.error thrown, draft, state)
  | (.ok entries, state) =>
      (.ok (), { draft with baseline := entries, baselineKnown := true }, state)

/-- A failure after the store was told to write leaves its effect uncertain. -/
def uncertain : Thrown → Thrown
  | .standard error => .standard ⟨error.what, some .uncertain⟩
  | .other => .standard ⟨"File staging could not be saved".toList, some .uncertain⟩

/-- What is reported after an attempted write has failed. -/
def observeFailure (thrown : Thrown) (state : S) : FileStagingWriteResult × S :=
  match store.load state with
  | (.error _, state) => (⟨none, some (uncertain thrown), true⟩, state)
  | (.ok observed, state) => (⟨some observed, some (uncertain thrown), true⟩, state)

/-- The operation that `prepareWrite` returns. -/
def performWrite (edits : FileStagingChanges) (state : S) : FileStagingWriteResult × S :=
  match store.load state with
  | (.error thrown, state) => (⟨none, some thrown, false⟩, state)
  | (.ok current, state) =>
      if !sameEntries qt current edits.before && !sameEntries qt current edits.after then
        (⟨none, some savedListChanged, false⟩, state)
      else
        match store.replace edits.after state with
        | (.error thrown, state) => observeFailure store thrown state
        | (.ok (), state) =>
            match store.load state with
            | (.error thrown, state) => observeFailure store thrown state
            | (.ok observed, state) =>
                if sameEntries qt observed edits.after then
                  (⟨some observed, none, true⟩, state)
                else observeFailure store savedListDiffers state

/-- Returns the edits whose write is prepared. -/
def prepareWrite (draft : FileStagingDraft) (edits : FileStagingChanges) (state : S) :
    Except Thrown FileStagingChanges × FileStagingDraft × S :=
  match ensureLoaded store draft state with
  | (.error thrown, draft, state) => (.error thrown, draft, state)
  | (.ok (), draft, state) =>
      if sameEntries qt draft.entries edits.after then (.ok edits, draft, state)
      else (.error draftChanged, draft, state)

def acceptWrite (draft : FileStagingDraft) (result : FileStagingWriteResult) :
    FileStagingDraft :=
  if result.attempted then
    { draft with
      baseline := result.observed.getD draft.baseline
      baselineKnown := result.observed.isSome
      persistencePending := result.failure.isSome }
  else draft

/-! ### What each operation does -/

theorem ensureLoaded_of_loaded {draft : FileStagingDraft} (hloaded : draft.loaded = true)
    (state : S) : ensureLoaded store draft state = (.ok (), draft, state) := by
  rw [ensureLoaded, if_pos hloaded]

theorem loaded_of_ensureLoaded {draft : FileStagingDraft} {state : S}
    (hok : (ensureLoaded store draft state).1 = .ok ()) :
    (ensureLoaded store draft state).2.1.loaded = true := by
  rw [ensureLoaded] at hok ⊢
  split_ifs at hok ⊢ with hloaded
  · exact hloaded
  · rcases hload : store.load state with ⟨thrown | entries, state'⟩
    · simp [hload] at hok
    · rfl

theorem load_of_loaded {draft : FileStagingDraft} (hloaded : draft.loaded = true)
    (state : S) : (load store draft state).2 = (draft, state) := by
  rw [load, ensureLoaded_of_loaded store hloaded]
  simp only
  split_ifs <;> rfl

/-- An edit of a loaded draft replaces the entries or does nothing. -/
theorem replace_of_loaded {draft : FileStagingDraft} (hloaded : draft.loaded = true)
    (entries : List FileStagingEntry) (state : S) :
    (replace qt store draft entries state).2 = (draft, state) ∨
      (replace qt store draft entries state).2 = ({ draft with entries := entries }, state) := by
  rw [replace, load, ensureLoaded_of_loaded store hloaded]
  by_cases hknown : draft.baselineKnown = true
  · simp only [hknown, if_true]
    split_ifs
    · exact Or.inl rfl
    · exact Or.inr rfl
  · simp only [hknown]
    exact Or.inl rfl

/-- A reconciliation changes what the draft knows of the store. -/
theorem reconcile_eq (draft : FileStagingDraft) (state : S) :
    (reconcile store draft state).2.1 = draft ∨ ∃ entries,
      (reconcile store draft state).2.1 =
        { draft with baseline := entries, baselineKnown := true } := by
  rw [reconcile]
  rcases store.load state with ⟨thrown | entries, state'⟩
  · exact Or.inl rfl
  · exact Or.inr ⟨entries, rfl⟩

/-- A write is prepared only for the entries the draft has. -/
theorem prepareWrite_ok {draft : FileStagingDraft} {edits prepared : FileStagingChanges}
    {state : S} (hok : (prepareWrite qt store draft edits state).1 = .ok prepared) :
    prepared = edits ∧
      (prepareWrite qt store draft edits state).2.1.loaded = true ∧
      sameEntries qt (prepareWrite qt store draft edits state).2.1.entries edits.after =
        true := by
  have hloaded : _ → (ensureLoaded store draft state).2.1.loaded = true :=
    loaded_of_ensureLoaded store
  rw [prepareWrite] at hok ⊢
  rcases hensure : ensureLoaded store draft state with ⟨thrown | _, draft', state'⟩
  · simp [hensure] at hok
  · rw [hensure] at hok hloaded
    simp only at hok ⊢
    split_ifs at hok ⊢ with hsame
    · exact ⟨(Except.ok.inj hok).symm, hloaded rfl, hsame⟩

theorem prepareWrite_of_loaded {draft : FileStagingDraft} (hloaded : draft.loaded = true)
    (edits : FileStagingChanges) (state : S) :
    (prepareWrite qt store draft edits state).2 = (draft, state) := by
  rw [prepareWrite, ensureLoaded_of_loaded store hloaded]
  simp only
  split_ifs <;> rfl

theorem observeFailure_failed (thrown : Thrown) (state : S) :
    (observeFailure store thrown state).1.attempted = true ∧
      (observeFailure store thrown state).1.failure = some (uncertain thrown) := by
  rw [observeFailure]
  rcases store.load state with ⟨_ | _, _⟩ <;> exact ⟨rfl, rfl⟩

/-- A write either stops before the store is told to write, or it found one of
the two lists of its plan; it succeeds only after it read back the new one. -/
theorem performWrite_cases (edits : FileStagingChanges) (state : S) :
    (performWrite qt store edits state).1.attempted = false ∧
        (performWrite qt store edits state).1.failure.isSome = true ∧
        (performWrite qt store edits state).2 = (store.load state).2 ∨
      (performWrite qt store edits state).1.attempted = true ∧
        (∃ current, (store.load state).1 = .ok current ∧
          (sameEntries qt current edits.before = true ∨
            sameEntries qt current edits.after = true)) ∧
        ((performWrite qt store edits state).1.failure.isSome = true ∨
          ∃ observed before, (performWrite qt store edits state).1 = ⟨some observed, none, true⟩ ∧
            sameEntries qt observed edits.after = true ∧
            store.load before = (.ok observed, (performWrite qt store edits state).2)) := by
  have hfailed : ∀ thrown state', (observeFailure store thrown state').1.attempted = true ∧
      (observeFailure store thrown state').1.failure.isSome = true := fun thrown state' => by
    obtain ⟨hattempted, hfailure⟩ := observeFailure_failed store thrown state'
    exact ⟨hattempted, by rw [hfailure]; rfl⟩
  rw [performWrite]
  rcases hload : store.load state with ⟨thrown | current, state₁⟩
  · exact Or.inl ⟨rfl, rfl, rfl⟩
  simp only
  split_ifs with hchanged
  · exact Or.inl ⟨rfl, rfl, rfl⟩
  have hcurrent : sameEntries qt current edits.before = true ∨
      sameEntries qt current edits.after = true := by
    by_contra hnone
    rw [not_or, Bool.not_eq_true, Bool.not_eq_true] at hnone
    exact hchanged (by simp [hnone])
  refine Or.inr ?_
  rcases store.replace edits.after state₁ with ⟨thrown | _, state₂⟩
  · simp only
    exact ⟨(hfailed thrown state₂).1, ⟨current, rfl, hcurrent⟩, Or.inl (hfailed thrown state₂).2⟩
  simp only
  rcases hread : store.load state₂ with ⟨thrown | observed, state₃⟩
  · simp only
    exact ⟨(hfailed thrown state₃).1, ⟨current, rfl, hcurrent⟩, Or.inl (hfailed thrown state₃).2⟩
  simp only
  split_ifs with hsame
  · exact ⟨rfl, ⟨current, rfl, hcurrent⟩, Or.inr ⟨observed, state₂, rfl, hsame, hread⟩⟩
  · exact ⟨(hfailed _ state₃).1, ⟨current, rfl, hcurrent⟩, Or.inl (hfailed _ state₃).2⟩

theorem changes_isSome_iff {draft : FileStagingDraft} :
    (changes qt draft).isSome = true ↔ draft.loaded = true ∧
      (draft.persistencePending = true ∨
        sameEntries qt draft.baseline draft.entries = false) := by
  rw [changes]
  cases draft.loaded <;> cases draft.persistencePending <;>
    cases sameEntries qt draft.baseline draft.entries <;> simp

@[simp]
theorem acceptWrite_entries (draft : FileStagingDraft) (result : FileStagingWriteResult) :
    (acceptWrite draft result).entries = draft.entries := by
  rw [acceptWrite]
  split_ifs <;> rfl

@[simp]
theorem acceptWrite_loaded (draft : FileStagingDraft) (result : FileStagingWriteResult) :
    (acceptWrite draft result).loaded = draft.loaded := by
  rw [acceptWrite]
  split_ifs <;> rfl

end FileStagingDraft

/-! ## The draft, the store and the writes in flight -/

/-- What can happen to the draft and the store.  Prepared writes and their
results are addressed by position; both can be used late or more than once. -/
inductive StagingAction (S : Type*) where
  | load
  | edit (entries : List FileStagingEntry)
  | reload
  | reconcile
  | prepare (edits : FileStagingChanges)
  | write (index : ℕ)
  | accept (index : ℕ)
  /-- Another program writes the store. -/
  | external (state : S)

structure StagingWorld (S : Type*) where
  draft : FileStagingDraft
  state : S
  prepared : List FileStagingChanges := []
  finished : List (FileStagingChanges × FileStagingWriteResult) := []

namespace StagingWorld

variable {S : Type*} (qt : Qt) (store : FileStagingStore S)

def step (world : StagingWorld S) : StagingAction S → StagingWorld S
  | .load =>
      let result := world.draft.load store world.state
      { world with draft := result.2.1, state := result.2.2 }
  | .edit entries =>
      let result := world.draft.replace qt store entries world.state
      { world with draft := result.2.1, state := result.2.2 }
  | .reload =>
      let result := world.draft.reload store world.state
      { world with draft := result.2.1, state := result.2.2 }
  | .reconcile =>
      let result := world.draft.reconcile store world.state
      { world with draft := result.2.1, state := result.2.2 }
  | .prepare edits =>
      let result := world.draft.prepareWrite qt store edits world.state
      { world with
        draft := result.2.1
        state := result.2.2
        prepared := world.prepared ++ result.1.toOption.toList }
  | .write index =>
      match world.prepared[index]? with
      | none => world
      | some edits =>
          let result := FileStagingDraft.performWrite qt store edits world.state
          { world with
            state := result.2
            finished := world.finished ++ [(edits, result.1)] }
  | .accept index =>
      match world.finished[index]? with
      | none => world
      | some finished => { world with draft := world.draft.acceptWrite finished.2 }
  | .external state => { world with state := state }

/-- A new draft over a store. -/
def initial (state : S) : StagingWorld S := { draft := {}, state := state }

/-! ### What holds in every world that can be reached -/

structure Consistent (world : StagingWorld S) : Prop where
  loaded : world.prepared ≠ [] ∨ world.finished ≠ [] → world.draft.loaded = true
  succeeded : ∀ finished ∈ world.finished, finished.2.failure = none →
    finished.2.attempted = true ∧ ∃ observed, finished.2.observed = some observed ∧
      sameEntries qt observed finished.1.after = true

theorem consistent_initial (state : S) : Consistent qt (initial state) :=
  ⟨fun h => by simp [initial] at h, fun _ h => by simp [initial] at h⟩

/-- Once loaded, the draft stays loaded. -/
theorem loaded_step {world : StagingWorld S} (action : StagingAction S)
    (hloaded : world.draft.loaded = true) :
    (step qt store world action).draft.loaded = true := by
  cases action with
  | load => simp only [step, FileStagingDraft.load_of_loaded store hloaded, hloaded]
  | edit entries =>
      rcases FileStagingDraft.replace_of_loaded qt store hloaded entries world.state with
        heq | heq <;> simp only [step, heq, hloaded]
  | reload =>
      simp only [step, FileStagingDraft.reload]
      rcases store.load world.state with ⟨_ | _, _⟩
      · exact hloaded
      · rfl
  | reconcile =>
      rcases FileStagingDraft.reconcile_eq store world.draft world.state with heq | ⟨entries, heq⟩ <;>
        simp only [step, heq, hloaded]
  | prepare edits =>
      simp only [step, FileStagingDraft.prepareWrite_of_loaded qt store hloaded, hloaded]
  | write index =>
      simp only [step]
      split <;> exact hloaded
  | accept index =>
      simp only [step]
      split
      · exact hloaded
      · rw [FileStagingDraft.acceptWrite_loaded, hloaded]
  | external state => exact hloaded

theorem consistent_step {world : StagingWorld S} (action : StagingAction S)
    (hworld : Consistent qt world) : Consistent qt (step qt store world action) := by
  constructor
  · intro hflight
    by_cases hbefore : world.prepared ≠ [] ∨ world.finished ≠ []
    · exact loaded_step qt store action (hworld.loaded hbefore)
    rw [not_or, not_not, not_not] at hbefore
    cases action with
    | prepare edits =>
        simp only [step, hbefore.1, hbefore.2, List.nil_append] at hflight ⊢
        cases hok : (world.draft.prepareWrite qt store edits world.state).1 with
        | error thrown => simp [hok, Except.toOption] at hflight
        | ok prepared => exact (FileStagingDraft.prepareWrite_ok qt store hok).2.1
    | load | edit _ | reload | reconcile | external _ => simp [step, hbefore] at hflight
    | write index | accept index => simp [step, hbefore] at hflight
  · intro finished hmem
    cases action with
    | write index =>
        simp only [step] at hmem
        split at hmem
        · exact hworld.succeeded finished hmem
        · rename_i edits hedits
          rcases List.mem_append.1 hmem with hmem | hmem
          · exact hworld.succeeded finished hmem
          · rw [List.mem_singleton] at hmem
            subst hmem
            intro hfailure
            replace hfailure :
                (FileStagingDraft.performWrite qt store edits world.state).1.failure = none :=
              hfailure
            rcases FileStagingDraft.performWrite_cases qt store edits world.state with
              ⟨-, hsome, -⟩ | ⟨hattempted, -, hsome | ⟨observed, before, hresult, hsame, -⟩⟩
            · exact absurd hsome (by simp [hfailure])
            · exact absurd hsome (by simp [hfailure])
            · exact ⟨hattempted, observed, by rw [hresult], hsame⟩
    | accept index =>
        refine hworld.succeeded finished ?_
        simp only [step] at hmem
        split at hmem <;> exact hmem
    | load | edit _ | reload | reconcile | prepare _ | external _ =>
        exact hworld.succeeded finished hmem

/-! ### What ends an intent to write -/

/-- The draft is read anew, or a write that succeeded is accepted. -/
def Resolves (world : StagingWorld S) : StagingAction S → Prop
  | .reload => (world.draft.reload store world.state).1 = .ok ()
  | .accept index => ∃ finished, world.finished[index]? = some finished ∧
      finished.2.failure = none
  | _ => False

/-- The draft is edited back to the stored list, or the stored list is found to
be the draft. -/
def EditsBack (world : StagingWorld S) : StagingAction S → Prop
  | .edit entries => sameEntries qt world.draft.baseline entries = true
  | .reconcile => sameEntries qt (step qt store world .reconcile).draft.baseline
      world.draft.entries = true
  | _ => False

def Pending (world : StagingWorld S) : Prop :=
  world.draft.loaded = true ∧ world.draft.persistencePending = true

def Engaged (world : StagingWorld S) : Prop :=
  (FileStagingDraft.changes qt world.draft).isSome = true

theorem engaged_of_pending {world : StagingWorld S} (hpending : Pending world) :
    Engaged qt world :=
  (FileStagingDraft.changes_isSome_iff qt).2 ⟨hpending.1, Or.inl hpending.2⟩

/-- What a result leaves in the draft when it is accepted and has not succeeded. -/
theorem acceptWrite_of_failed {result : FileStagingWriteResult} (draft : FileStagingDraft)
    (hfailed : result.failure ≠ none) :
    draft.acceptWrite result = draft ∨
      (draft.acceptWrite result).persistencePending = true := by
  rw [FileStagingDraft.acceptWrite]
  split_ifs
  · exact Or.inr (Option.isSome_iff_ne_none.2 hfailed)
  · exact Or.inl rfl

/-- A draft that could not be read anew stays as it is. -/
theorem reload_of_failed (world : StagingWorld S) (hkeeps : ¬Resolves store world .reload) :
    (world.draft.reload store world.state).2.1 = world.draft := by
  rw [Resolves, FileStagingDraft.reload] at hkeeps
  rw [FileStagingDraft.reload]
  rcases hload : store.load world.state with ⟨thrown | entries, state⟩
  · rfl
  · rw [hload] at hkeeps
    exact absurd rfl hkeeps

theorem pending_step {world : StagingWorld S} {action : StagingAction S}
    (hpending : Pending world) (hkeeps : ¬Resolves store world action) :
    Pending (step qt store world action) := by
  refine ⟨loaded_step qt store action hpending.1, ?_⟩
  obtain ⟨hloaded, hpending⟩ := hpending
  cases action with
  | load => simp only [step, FileStagingDraft.load_of_loaded store hloaded, hpending]
  | edit entries =>
      rcases FileStagingDraft.replace_of_loaded qt store hloaded entries world.state with
        heq | heq <;> simp only [step, heq, hpending]
  | reload => rw [step, reload_of_failed store world hkeeps, hpending]
  | reconcile =>
      rcases FileStagingDraft.reconcile_eq store world.draft world.state with heq | ⟨entries, heq⟩ <;>
        simp only [step, heq, hpending]
  | prepare edits =>
      simp only [step, FileStagingDraft.prepareWrite_of_loaded qt store hloaded, hpending]
  | write index =>
      simp only [step]
      split <;> exact hpending
  | accept index =>
      simp only [step]
      split
      · exact hpending
      · rename_i finished hfinished
        rcases acceptWrite_of_failed world.draft
          (fun hnone => hkeeps ⟨finished, hfinished, hnone⟩) with heq | hset
        · rw [heq, hpending]
        · exact hset
  | external state => exact hpending

theorem engaged_step {world : StagingWorld S} {action : StagingAction S}
    (hengaged : Engaged qt world)
    (hkeeps : ¬Resolves store world action ∧ ¬EditsBack qt store world action) :
    Engaged qt (step qt store world action) := by
  obtain ⟨hloaded, hwhy⟩ := (FileStagingDraft.changes_isSome_iff qt).1 hengaged
  by_cases hpending : world.draft.persistencePending = true
  · exact engaged_of_pending qt (pending_step qt store ⟨hloaded, hpending⟩ hkeeps.1)
  have hdiffers := hwhy.resolve_left hpending
  refine (FileStagingDraft.changes_isSome_iff qt).2 ⟨loaded_step qt store action hloaded, ?_⟩
  cases action with
  | load =>
      simp only [step, FileStagingDraft.load_of_loaded store hloaded]
      exact Or.inr hdiffers
  | edit entries =>
      rcases FileStagingDraft.replace_of_loaded qt store hloaded entries world.state with
        heq | heq <;> simp only [step, heq]
      · exact Or.inr hdiffers
      · exact Or.inr (Bool.eq_false_iff.2 hkeeps.2)
  | reload =>
      rw [step, reload_of_failed store world hkeeps.1]
      exact Or.inr hdiffers
  | reconcile =>
      right
      have hentries : (step qt store world .reconcile).draft.entries = world.draft.entries := by
        rcases FileStagingDraft.reconcile_eq store world.draft world.state with
          heq | ⟨entries, heq⟩ <;> simp only [step, heq]
      rw [hentries]
      exact Bool.eq_false_iff.2 hkeeps.2
  | prepare edits =>
      simp only [step, FileStagingDraft.prepareWrite_of_loaded qt store hloaded]
      exact Or.inr hdiffers
  | write index =>
      simp only [step]
      split <;> exact Or.inr hdiffers
  | accept index =>
      simp only [step]
      split
      · exact Or.inr hdiffers
      · rename_i finished hfinished
        rcases acceptWrite_of_failed world.draft
          (fun hnone => hkeeps.1 ⟨finished, hfinished, hnone⟩) with heq | hset
        · rw [heq]
          exact Or.inr hdiffers
        · exact Or.inl hset
  | external state => exact Or.inr hdiffers

/-- An accepted result whose list was observed makes it the baseline; the
draft keeps its entries, and what differs from the new baseline is pending. -/
theorem changes_acceptWrite {draft : FileStagingDraft} {result : FileStagingWriteResult}
    {observed : List FileStagingEntry} (hloaded : draft.loaded = true)
    (hattempted : result.attempted = true) (hobserved : result.observed = some observed)
    (hdiffers : sameEntries qt observed draft.entries = false) :
    (draft.acceptWrite result).changes qt =
      some ⟨observed, draft.entries, result.failure.isSome⟩ := by
  simp [FileStagingDraft.acceptWrite, FileStagingDraft.changes, hloaded, hattempted, hobserved,
    hdiffers]

/-! ### The write protocol -/

variable (content : S → List FileStagingEntry)

structure WriteProtocol (world : StagingWorld S) : Prop where
  /-- A write is prepared only when the draft has the list of the plan. -/
  prepared : ∀ edits prepared,
    (world.draft.prepareWrite qt store edits world.state).1 = .ok prepared →
      prepared = edits ∧ sameEntries qt
        (world.draft.prepareWrite qt store edits world.state).2.1.entries edits.after = true
  /-- The store is told to write only when it has a list of the plan; with
  another list it is read and nothing else. -/
  replaced : ∀ edits,
    sameEntries qt (content world.state) edits.before = true ∨
      sameEntries qt (content world.state) edits.after = true ∨
      (FileStagingDraft.performWrite qt store edits world.state).1.attempted = false ∧
        (FileStagingDraft.performWrite qt store edits world.state).1.failure.isSome = true ∧
        (FileStagingDraft.performWrite qt store edits world.state).2 =
          (store.load world.state).2
  /-- A write that reports success leaves the list of its plan in the store. -/
  succeeded : ∀ edits,
    (FileStagingDraft.performWrite qt store edits world.state).1.failure = none →
      sameEntries qt
        (content (FileStagingDraft.performWrite qt store edits world.state).2) edits.after = true
  /-- What was edited while the write was on its way stays pending. -/
  edited : ∀ finished ∈ world.finished, finished.2.failure = none →
    sameEntries qt finished.1.after world.draft.entries = false →
      ∃ baseline, sameEntries qt baseline finished.1.after = true ∧
        (world.draft.acceptWrite finished.2).changes qt =
          some ⟨baseline, world.draft.entries, false⟩
  /-- The same after a failed write whose result could be observed. -/
  observed : ∀ finished ∈ world.finished, ∀ baseline, finished.2.attempted = true →
    finished.2.observed = some baseline → sameEntries qt baseline world.draft.entries = false →
      (world.draft.acceptWrite finished.2).changes qt =
        some ⟨baseline, world.draft.entries, finished.2.failure.isSome⟩
  /-- A failed write keeps the entries.  Once the store was told to write, the
  draft asks to write again until a write succeeds or the draft is read anew. -/
  failed : ∀ index finished, world.finished[index]? = some finished →
    finished.2.failure ≠ none →
      (step qt store world (.accept index)).draft.entries = world.draft.entries ∧
      (finished.2.attempted = false → step qt store world (.accept index) = world) ∧
      (finished.2.attempted = true → ∀ actions,
        GuardedRun.Guarded (step qt store) (fun world action => ¬Resolves store world action)
          (step qt store world (.accept index)) actions →
        Engaged qt (actions.foldl (step qt store) (step qt store world (.accept index))))
  /-- A draft with changes keeps them through failed writes and anything else
  until a write succeeds or the draft is edited back or read anew. -/
  engaged : Engaged qt world → ∀ actions,
    GuardedRun.Guarded (step qt store)
      (fun world action => ¬Resolves store world action ∧ ¬EditsBack qt store world action)
      world actions →
    Engaged qt (actions.foldl (step qt store) world)

variable {content}

theorem performWrite_replaced (hreads : store.Reads content) (edits : FileStagingChanges)
    (state : S) :
    sameEntries qt (content state) edits.before = true ∨
      sameEntries qt (content state) edits.after = true ∨
      (FileStagingDraft.performWrite qt store edits state).1.attempted = false ∧
        (FileStagingDraft.performWrite qt store edits state).1.failure.isSome = true ∧
        (FileStagingDraft.performWrite qt store edits state).2 = (store.load state).2 := by
  rcases FileStagingDraft.performWrite_cases qt store edits state with
    hstopped | ⟨-, ⟨current, hload, hsame⟩, -⟩
  · exact Or.inr (Or.inr hstopped)
  · rw [hreads.returned state current hload] at hsame
    exact hsame.imp_right Or.inl

theorem performWrite_succeeded (hreads : store.Reads content) {edits : FileStagingChanges}
    {state : S} (hnone : (FileStagingDraft.performWrite qt store edits state).1.failure = none) :
    sameEntries qt (content (FileStagingDraft.performWrite qt store edits state).2)
      edits.after = true := by
  rcases FileStagingDraft.performWrite_cases qt store edits state with
    ⟨-, hsome, -⟩ | ⟨-, -, hsome | ⟨observed, before, -, hsame, hload⟩⟩
  · exact absurd hsome (by simp [hnone])
  · exact absurd hsome (by simp [hnone])
  · have hread := hreads.returned before observed (by rw [hload])
    have hunchanged := hreads.unchanged before
    rw [hload] at hunchanged
    rwa [hunchanged, ← hread]

theorem writeProtocol_of_consistent (hreads : store.Reads content) {world : StagingWorld S}
    (hworld : Consistent qt world) : WriteProtocol qt store content world where
  prepared edits prepared hok :=
    let ⟨heq, _, hsame⟩ := FileStagingDraft.prepareWrite_ok qt store hok
    ⟨heq, hsame⟩
  replaced edits := performWrite_replaced qt store hreads edits world.state
  succeeded edits hnone := performWrite_succeeded qt store hreads hnone
  edited finished hmem hnone hedited := by
    obtain ⟨hattempted, observed, hobserved, hsame⟩ := hworld.succeeded finished hmem hnone
    refine ⟨observed, hsame, ?_⟩
    have hdiffers : sameEntries qt observed world.draft.entries = false := by
      rw [Bool.eq_false_iff] at hedited ⊢
      exact fun heq => hedited (sameEntries_trans qt (sameEntries_symm qt hsame) heq)
    have hloaded := hworld.loaded (Or.inr (List.ne_nil_of_mem hmem))
    simpa [hnone] using changes_acceptWrite qt hloaded hattempted hobserved hdiffers
  observed finished hmem baseline hattempted hobserved hdiffers :=
    changes_acceptWrite qt (hworld.loaded (Or.inr (List.ne_nil_of_mem hmem))) hattempted
      hobserved hdiffers
  failed index finished hfinished hfailed := by
    have hmem := List.mem_of_getElem? hfinished
    have hloaded := hworld.loaded (Or.inr (List.ne_nil_of_mem hmem))
    have hstep : step qt store world (.accept index) =
        { world with draft := world.draft.acceptWrite finished.2 } := by
      simp only [step, hfinished]
    rw [hstep]
    refine ⟨FileStagingDraft.acceptWrite_entries _ _, ?_, ?_⟩
    · intro hnot
      simp [FileStagingDraft.acceptWrite, hnot]
    · intro hattempted actions hguarded
      have hpending : Pending { world with draft := world.draft.acceptWrite finished.2 } := by
        refine ⟨by simpa using hloaded, ?_⟩
        simpa [FileStagingDraft.acceptWrite, hattempted, Option.isSome_iff_ne_none] using hfailed
      exact engaged_of_pending qt
        (GuardedRun.preserved (fun _ _ => pending_step qt store) hpending hguarded)
  engaged hengaged _ hguarded :=
    GuardedRun.preserved (fun _ _ => engaged_step qt store) hengaged hguarded

/-- Whatever the store does and whoever else writes it, every interleaving of
edits, reloads and planned writes keeps the write protocol. -/
theorem writeProtocol_holds (hreads : store.Reads content) (state : S)
    (actions : List (StagingAction S)) :
    WriteProtocol qt store content (actions.foldl (step qt store) (initial state)) :=
  writeProtocol_of_consistent qt store hreads
    (GuardedRun.preserved (fun _ action hworld _ => consistent_step qt store action hworld)
      (consistent_initial qt state) (GuardedRun.guarded_of_forall (fun _ _ => trivial) _ _))

/-- A store that does what it is told. -/
def memoryStore : FileStagingStore (List FileStagingEntry) where
  load stored := (.ok stored, stored)
  replace entries _ := (.ok (), entries)

theorem memoryStore_reads : memoryStore.Reads id :=
  ⟨fun _ _ hload => (Except.ok.inj hload).symm, fun _ => rfl⟩

/-- A store that writes and then throws. -/
def failsAfterWriting : FileStagingStore (List FileStagingEntry) where
  load stored := (.ok stored, stored)
  replace entries _ := (.error .other, entries)

theorem writeProtocol_holds_failsAfterWriting :
    (∀ stored, (failsAfterWriting.load stored).1 = .ok stored) ∧
      WriteProtocol Qt.ascii failsAfterWriting id
        ([.load, .edit [⟨.file, "C:\\a".toList⟩],
            .prepare ⟨[], [⟨.file, "C:\\a".toList⟩], false⟩, .write 0, .accept 0].foldl
          (step Qt.ascii failsAfterWriting) (initial [])) :=
  ⟨fun _ => rfl, writeProtocol_holds Qt.ascii failsAfterWriting
    ⟨fun _ _ hload => (Except.ok.inj hload).symm, fun _ => rfl⟩ [] _⟩

end StagingWorld

end UwfManager
