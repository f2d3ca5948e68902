import UwfManager.Staging.FileStagingCommitter

/-!
# What a batch commits and counts

However the staged roots overlap and whatever fails, each file is scheduled once
and is counted once: as committed, as skipped or as failed.  Only files that no
exclusion covers are scheduled, and only files on protected volumes are committed.
-/

namespace UwfManager

variable {qt : Qt} {σ : Type*} {calls : CommitterCalls σ}

/-! ## The scan -/

namespace ScanState

/-- What holds of a scan at any time: the targets that were seen are the scheduled files
and the skipped ones, each once, each scheduled file is admitted, and the volumes are those
of the plan. -/
structure Sound (qt : Qt) (admitted : Text → Prop) (volumes : List VolumeRow)
    (state : ScanState σ) : Prop where
  nodup : (state.scan.files.map qt.toCaseFolded).Nodup
  seen : ∀ file ∈ state.scan.files, qt.toCaseFolded file ∈ state.seenTargets
  normal : ∀ file ∈ state.scan.files, ∃ raw, file = Paths.normalize qt raw
  once : state.seenTargets.Nodup
  counted : state.seenTargets.length = state.scan.files.length + state.scan.skippedFiles
  admitted : ∀ file ∈ state.scan.files, admitted file
  volumes : state.scan.volumes = volumes

variable {taken admitted : Text → Prop} {volumes : List VolumeRow} {state : ScanState σ}

theorem Sound.announceFile (hsound : Sound qt admitted volumes state) (path : Text) :
    Sound qt admitted volumes (state.announceFile qt path) := by
  rw [ScanState.announceFile]
  split_ifs
  · exact hsound
  · exact ⟨hsound.nodup, hsound.seen, hsound.normal, hsound.once, hsound.counted,
      hsound.admitted, hsound.volumes⟩

theorem announceFile_eq (state : ScanState σ) (path : Text) :
    (state.announceFile qt path).scan = state.scan ∧
      (state.announceFile qt path).seenTargets = state.seenTargets := by
  rw [announceFile]
  split_ifs <;> exact ⟨rfl, rfl⟩

/-- A state with the same files, targets and counts is as sound. -/
theorem Sound.transfer (hsound : Sound qt admitted volumes state) {after : ScanState σ}
    (hfiles : after.scan.files = state.scan.files)
    (hskipped : after.scan.skippedFiles = state.scan.skippedFiles)
    (hseen : after.seenTargets = state.seenTargets)
    (hvolumes : after.scan.volumes = state.scan.volumes) : Sound qt admitted volumes after := by
  refine ⟨?_, ?_, ?_, ?_, ?_, ?_, hvolumes.trans hsound.volumes⟩
  · rw [hfiles]
    exact hsound.nodup
  · rw [hfiles, hseen]
    exact hsound.seen
  · rw [hfiles]
    exact hsound.normal
  · rw [hseen]
    exact hsound.once
  · rw [hfiles, hseen, hskipped]
    exact hsound.counted
  · rw [hfiles]
    exact hsound.admitted

/-- A new target is scheduled. -/
theorem Sound.schedule (hsound : Sound qt admitted volumes state) {rawPath : Text}
    (hnew : qt.toCaseFolded (Paths.normalize qt rawPath) ∉ state.seenTargets)
    (hadmitted : admitted (Paths.normalize qt rawPath)) :
    Sound qt admitted volumes { state with
      seenTargets := qt.toCaseFolded (Paths.normalize qt rawPath) :: state.seenTargets
      scan := { state.scan with files := state.scan.files ++ [Paths.normalize qt rawPath] } } := by
  refine ⟨?_, ?_, ?_, List.nodup_cons.2 ⟨hnew, hsound.once⟩, ?_, ?_, hsound.volumes⟩
  · rw [List.map_append, List.nodup_append]
    refine ⟨hsound.nodup, List.nodup_singleton _, ?_⟩
    intro old hold new hmem hsame
    obtain ⟨file, hfile, rfl⟩ := List.mem_map.1 hold
    rw [List.map_cons, List.map_nil, List.mem_singleton] at hmem
    apply hnew
    rw [← hmem, ← hsame]
    exact hsound.seen file hfile
  · intro file hfile
    rcases List.mem_append.1 hfile with hold | hlast
    · exact List.mem_cons_of_mem _ (hsound.seen file hold)
    · rw [List.mem_singleton.1 hlast]
      exact List.mem_cons_self
  · intro file hfile
    rcases List.mem_append.1 hfile with hold | hlast
    · exact hsound.normal file hold
    · exact ⟨rawPath, List.mem_singleton.1 hlast⟩
  · change (_ :: state.seenTargets).length =
      (state.scan.files ++ [Paths.normalize qt rawPath]).length + state.scan.skippedFiles
    rw [List.length_cons, List.length_append, List.length_singleton, hsound.counted]
    exact Nat.add_right_comm _ _ 1
  · intro file hfile
    rcases List.mem_append.1 hfile with hold | hlast
    · exact hsound.admitted file hold
    · rw [List.mem_singleton.1 hlast]
      exact hadmitted

/-- A new target is skipped. -/
theorem Sound.skip (hsound : Sound qt admitted volumes state) {identity : Text}
    (hnew : identity ∉ state.seenTargets) :
    Sound qt admitted volumes { state with
      seenTargets := identity :: state.seenTargets
      scan := { state.scan with skippedFiles := state.scan.skippedFiles + 1 } } := by
  refine ⟨hsound.nodup, ?_, hsound.normal, List.nodup_cons.2 ⟨hnew, hsound.once⟩, ?_,
    hsound.admitted, hsound.volumes⟩
  · exact fun file hfile => List.mem_cons_of_mem _ (hsound.seen file hfile)
  · change (identity :: state.seenTargets).length =
      state.scan.files.length + (state.scan.skippedFiles + 1)
    rw [List.length_cons, hsound.counted, Nat.add_assoc]

/-- A file is counted when its target is seen for the first time. -/
theorem Sound.addFile (hsound : Sound qt admitted volumes state) (rawPath : Text) {excluded : Bool}
    (hadmitted : excluded = false → admitted (Paths.normalize qt rawPath)) :
    Sound qt admitted volumes (state.addFile qt rawPath excluded) := by
  rw [ScanState.addFile]
  simp only
  by_cases hknown :
      state.seenTargets.contains (qt.toCaseFolded (Paths.normalize qt rawPath)) = true
  · rw [if_pos hknown]
    exact hsound
  · rw [if_neg hknown]
    rw [List.contains_iff_mem] at hknown
    obtain ⟨hscan, hseen⟩ := @announceFile_eq qt σ { state with
      seenTargets := qt.toCaseFolded (Paths.normalize qt rawPath) :: state.seenTargets }
      (Paths.normalize qt rawPath)
    cases excluded with
    | true =>
        rw [if_pos rfl]
        apply (hsound.skip hknown).transfer
        · rw [hscan]
        · rw [hscan]
        · exact hseen
        · rw [hscan]
    | false =>
        rw [if_neg Bool.false_ne_true]
        apply (hsound.schedule hknown (hadmitted rfl)).transfer
        · rw [hscan]
        · rw [hscan]
        · exact hseen
        · rw [hscan]

theorem Sound.takeRecord (hsound : Sound qt admitted volumes state) (exclusions : PathExclusionIndex)
    {record : CommitTraversalRecord}
    (hadmitted : record.status = .succeeded → admitted (Paths.normalize qt record.node.path)) :
    Sound qt admitted volumes (state.takeRecord qt calls exclusions record) := by
  rw [ScanState.takeRecord]
  split_ifs with hsucceeded hskipped hfile hfailed
  · exact hsound.addFile _ fun _ => hadmitted hsucceeded.1
  · exact hsound.addFile _ nofun
  · exact hsound
  · split
    · exact ⟨hsound.nodup, hsound.seen, hsound.normal, hsound.once, hsound.counted,
        hsound.admitted, hsound.volumes⟩
    · exact ⟨hsound.nodup, hsound.seen, hsound.normal, hsound.once, hsound.counted,
        hsound.admitted, hsound.volumes⟩
  · exact hsound

theorem Sound.takeRecords (hsound : Sound qt admitted volumes state) (exclusions : PathExclusionIndex)
    {records : List CommitTraversalRecord}
    (hadmitted : ∀ record ∈ records, record.status = .succeeded →
      admitted (Paths.normalize qt record.node.path)) :
    Sound qt admitted volumes (records.foldl (ScanState.takeRecord qt calls exclusions) state) := by
  induction records generalizing state with
  | nil => exact hsound
  | cons record rest ih =>
      exact ih (hsound.takeRecord exclusions (hadmitted record List.mem_cons_self))
        fun other hother => hadmitted other (List.mem_cons_of_mem _ hother)

theorem Sound.announceProgress (hsound : Sound qt admitted volumes state)
    (published : List CommitTraversalProgress) :
    Sound qt admitted volumes (state.announceProgress qt published) := by
  rw [ScanState.announceProgress]
  generalize (0 : ℤ) = items
  induction published generalizing state items with
  | nil => exact hsound
  | cons progress rest ih =>
      rw [List.foldl_cons]
      apply ih
      dsimp only
      split_ifs
      · exact hsound.announceFile progress.path
      · exact hsound

/-- What is asked of the admitted paths: they are the taken paths that the exclusions do not
cover, and the walk of a taken directory finds no others. -/
structure Admits (qt : Qt) (calls : CommitterCalls σ) (exclusions : PathExclusionIndex)
    (taken admitted : Text → Prop) : Prop where
  file : ∀ path, taken path → exclusions.contains qt (Paths.normalize qt path) = false →
    admitted (Paths.normalize qt (Paths.normalize qt path))
  walk : ∀ fuel path source prepared, taken path →
    prepareCommitFrom qt (stagingTraversalSource qt calls.files exclusions) fuel
      { target := { kind := .folder, path := Paths.normalize qt path } }
      { request := { target := { kind := .folder, path := Paths.normalize qt path } } } source =
        some prepared →
    ∀ record ∈ prepared.1.plan.records, record.status = .succeeded →
      admitted (Paths.normalize qt record.node.path)

variable {exclusions : PathExclusionIndex}

theorem Sound.scanDirectory (hsound : Sound qt admitted volumes state)
    (hadmits : Admits qt calls exclusions taken admitted) (fuel : ℕ) {path : Text}
    (htaken : taken path) :
    Sound qt admitted volumes
      (state.scanDirectory qt calls exclusions fuel (Paths.normalize qt path)).2 := by
  rw [ScanState.scanDirectory]
  cases hprepared : prepareCommitFrom qt (stagingTraversalSource qt calls.files exclusions) fuel
      { target := { kind := .folder, path := Paths.normalize qt path } }
      { request := { target := { kind := .folder, path := Paths.normalize qt path } } }
      state.source with
  | none => exact hsound
  | some prepared =>
      have hwalk := hadmits.walk fuel path state.source prepared htaken hprepared
      have hmoved : Sound qt admitted volumes { state with source := prepared.2 } :=
        hsound.transfer rfl rfl rfl rfl
      exact (hmoved.announceProgress prepared.1.published).takeRecords exclusions hwalk

theorem Sound.checkDirectory (hsound : Sound qt admitted volumes state) (path : Text) :
    Sound qt admitted volumes (state.checkDirectory calls path).2 := by
  rw [ScanState.checkDirectory]
  split
  · exact hsound.transfer rfl rfl rfl rfl
  · exact hsound.transfer rfl rfl rfl rfl
  · split_ifs <;> exact hsound.transfer rfl rfl rfl rfl

theorem Sound.scanNode (hsound : Sound qt admitted volumes state)
    (hadmits : Admits qt calls exclusions taken admitted) (fuel : ℕ) (kind : FileStagingKind)
    {path : Text} (htaken : taken path) (node : CommitNode) :
    Sound qt admitted volumes
      (state.scanNode qt calls exclusions fuel kind (Paths.normalize qt path) node).2 := by
  cases kind with
  | file =>
      rw [ScanState.scanNode]
      split_ifs
      · exact hsound.transfer rfl rfl rfl rfl
      · exact hsound.addFile _ (hadmits.file path htaken)
  | directory =>
      rw [ScanState.scanNode]
      split_ifs
      · exact hsound.transfer rfl rfl rfl rfl
      · have hchecked : Sound qt admitted volumes
            (state.checkDirectory calls (Paths.normalize qt path)).2 :=
          hsound.checkDirectory (Paths.normalize qt path)
        rcases hresult : state.checkDirectory calls (Paths.normalize qt path) with
          ⟨thrown | walked, after⟩
        · rw [hresult] at hchecked
          exact hchecked
        · rw [hresult] at hchecked
          cases walked with
          | false => exact hchecked
          | true => exact hchecked.scanDirectory hadmits fuel htaken

theorem Sound.scanEntry (hsound : Sound qt admitted volumes state)
    (hadmits : Admits qt calls exclusions taken admitted) (fuel : ℕ) {entry : FileStagingEntry}
    (htaken : taken entry.path) :
    Sound qt admitted volumes (state.scanEntry qt calls exclusions fuel entry).2 := by
  rw [ScanState.scanEntry]
  simp only
  split
  · exact hsound.transfer rfl rfl rfl rfl
  · exact hsound.transfer rfl rfl rfl rfl
  · exact hsound.transfer rfl rfl rfl rfl
  · rename_i node source hinspect
    split_ifs
    · exact hsound.transfer rfl rfl rfl rfl
    · have hmoved : Sound qt admitted volumes { state with source := source } :=
        hsound.transfer rfl rfl rfl rfl
      exact hmoved.scanNode hadmits fuel entry.kind htaken node

theorem Sound.scanEntries (hsound : Sound qt admitted volumes state)
    (hadmits : Admits qt calls exclusions taken admitted) (fuel : ℕ)
    {entries : List FileStagingEntry} (htaken : ∀ entry ∈ entries, taken entry.path) :
    Sound qt admitted volumes (scanEntries qt calls exclusions fuel entries state).2 := by
  induction entries generalizing state with
  | nil => exact hsound
  | cons entry rest ih =>
      rw [ScanState.scanEntries]
      split_ifs
      · exact hsound
      · have hentry := hsound.scanEntry hadmits fuel (htaken entry List.mem_cons_self)
        rcases hresult : state.scanEntry qt calls exclusions fuel entry with
          ⟨thrown | returned, after⟩
        · rw [hresult] at hentry
          exact hentry
        · rw [hresult] at hentry
          exact ih hentry fun other hother => htaken other (List.mem_cons_of_mem _ hother)

end ScanState

/-- Whatever fails, a scan is sound at its end. -/
theorem scan_sound {taken admitted : Text → Prop} (fuel : ℕ) {plan : FileStagingScanPlan}
    (hadmits : ScanState.Admits qt calls (.ofExclusions qt plan.fileExclusions) taken admitted)
    (htaken : ∀ entry ∈ plan.entries, taken entry.path) (source : σ) :
    ScanState.Sound qt admitted plan.volumes (scan qt calls fuel plan source).2 := by
  refine ScanState.Sound.scanEntries ?_ hadmits fuel htaken
  exact ⟨List.nodup_nil, fun _ hfile => absurd hfile List.not_mem_nil,
    fun _ hfile => absurd hfile List.not_mem_nil, List.nodup_nil, rfl,
    fun _ hfile => absurd hfile List.not_mem_nil, rfl⟩

/-! ## The commit -/

/-- A call of `commitFile` as the provider sees it. -/
structure FileCommit where
  volume : VolumeRow
  path : Text
  returned : Bool
  deriving DecidableEq

/-- The state has a log of the calls of `commitFile`, which the other calls leave alone. -/
structure CommitterCalls.Logs (calls : CommitterCalls σ) (log : σ → List FileCommit) : Prop where
  inspect : ∀ node source, log (calls.files.inspect node source).2 = log source
  volumeForPath : ∀ path source, log (calls.volumeForPath path source).2 = log source
  session : ∀ source, log (calls.session source).2 = log source
  commitFile : ∀ volume path source, log (calls.commitFile volume path source).2 =
    log source ++ [⟨volume, path, (calls.commitFile volume path source).1.isOk⟩]

namespace FileStagingCommitOperation

/-- Each file of the plan that has been taken up is committed, skipped, recorded as failed
or lost in one of `thrown` calls that threw. -/
structure Accounts (plan : FileStagingCommitPlan) (thrown : ℕ)
    (operation : FileStagingCommitOperation σ) : Prop where
  files : operation.files = plan.files
  volumes : operation.volumes = plan.volumes
  bounded : operation.nextFile ≤ plan.files.length
  discovered : operation.tally.discoveredFiles = plan.discoveredFiles
  failures : ∃ failed, operation.tally.failures = plan.failures ++ failed ∧
    plan.discoveredFiles = operation.tally.committedFiles + operation.tally.skippedFiles +
      failed.length + thrown + (plan.files.length - operation.nextFile)

/-- What treating a file can do to the counts: exactly one of them goes up. -/
inductive Counted (before : FileStagingTally) : Except Thrown Unit → FileStagingTally → Prop
  | committed : Counted before (.ok ())
      { before with committedFiles := before.committedFiles + 1 }
  | skipped : Counted before (.ok ())
      { before with skippedFiles := before.skippedFiles + 1 }
  | failed (failure : FileStagingCommitFailure) : Counted before (.ok ())
      { before with failures := before.failures ++ [failure] }
  | thrown (thrown : Thrown) : Counted before (.error thrown) before

/-- Treating a file keeps the plan, counts the file once and calls the provider for a
protected volume only. -/
structure Processed (calls : CommitterCalls σ) (before : FileStagingCommitOperation σ)
    (path : Text) (result : Except Thrown Unit × FileStagingCommitOperation σ) : Prop where
  files : result.2.files = before.files
  volumes : result.2.volumes = before.volumes
  nextFile : result.2.nextFile = before.nextFile
  counted : Counted before.tally result.1 result.2.tally
  commitCalls : result.2.commitCalls = before.commitCalls ∨
    ∃ driveLetter volume, result.2.commitCalls =
        before.commitCalls ++ [⟨driveLetter, volume, path⟩] ∧
      findCurrentVolume before.volumes driveLetter = some volume ∧ volume.isProtected = true ∧
      ∃ source after, calls.volumeForPath path source = (.ok driveLetter, after)

variable {operation : FileStagingCommitOperation σ}

theorem commit_processed {driveLetter path : Text} {volume : VolumeRow}
    (hvolume : findCurrentVolume operation.volumes driveLetter = some volume)
    (hprotected : volume.isProtected = true)
    (hanswer : ∃ source after, calls.volumeForPath path source = (.ok driveLetter, after)) :
    Processed calls operation path (operation.commit calls driveLetter path volume) := by
  rw [commit]
  rcases calls.session operation.source with ⟨thrown | opened, source⟩
  · exact ⟨rfl, rfl, rfl, .thrown thrown, Or.inl rfl⟩
  · simp only
    have hcall : ∃ letter row, operation.commitCalls ++ [⟨driveLetter, volume, path⟩] =
          operation.commitCalls ++ [⟨letter, row, path⟩] ∧
        findCurrentVolume operation.volumes letter = some row ∧ row.isProtected = true ∧
        ∃ source after, calls.volumeForPath path source = (.ok letter, after) :=
      ⟨driveLetter, volume, rfl, hvolume, hprotected, hanswer⟩
    cases (calls.commitFile volume path source).1 with
    | ok returned => exact ⟨rfl, rfl, rfl, .committed, Or.inr hcall⟩
    | error thrown =>
        cases thrown with
        | wmi notFound what =>
            cases notFound with
            | true => exact ⟨rfl, rfl, rfl, .skipped, Or.inr hcall⟩
            | false => exact ⟨rfl, rfl, rfl, .failed _, Or.inr hcall⟩
        | standard what => exact ⟨rfl, rfl, rfl, .failed _, Or.inr hcall⟩
        | other => exact ⟨rfl, rfl, rfl, .failed _, Or.inr hcall⟩

theorem catchStandard_eq_ok {A : Type} {call : σ → Except Thrown A × σ} {source after : σ}
    {value : A} (hreturned : catchStandard call source = (.ok (.ok value), after)) :
    call source = (.ok value, after) := by
  rw [catchStandard] at hreturned
  rcases hcall : call source with ⟨thrown | found, between⟩
  · cases thrown with
    | standard error =>
        rw [hcall] at hreturned
        cases hreturned
    | other =>
        rw [hcall] at hreturned
        cases hreturned
  · rw [hcall] at hreturned
    cases hreturned
    rfl

theorem commitOnVolume_processed (path : Text) :
    Processed calls operation path (operation.commitOnVolume calls path) := by
  rw [commitOnVolume]
  rcases hresult : catchStandard (calls.volumeForPath path) operation.source with
    ⟨thrown | error | driveLetter, source⟩
  · exact ⟨rfl, rfl, rfl, .thrown thrown, Or.inl rfl⟩
  · exact ⟨rfl, rfl, rfl, .failed _, Or.inl rfl⟩
  · simp only
    cases hvolume : findCurrentVolume operation.volumes driveLetter with
    | none => exact ⟨rfl, rfl, rfl, .skipped, Or.inl rfl⟩
    | some volume =>
        simp only
        by_cases hprotected : volume.isProtected = true
        · have hanswer := catchStandard_eq_ok hresult
          have hprocessed := @commit_processed σ calls { operation with source := source }
            driveLetter path volume hvolume hprotected ⟨_, _, hanswer⟩
          rw [hprotected, Bool.not_true, if_neg Bool.false_ne_true]
          exact ⟨hprocessed.files, hprocessed.volumes, hprocessed.nextFile, hprocessed.counted,
            hprocessed.commitCalls⟩
        · rw [if_pos (by simpa using hprotected)]
          exact ⟨rfl, rfl, rfl, .skipped, Or.inl rfl⟩

theorem process_processed (path : Text) :
    Processed calls operation path (operation.process calls path) := by
  rw [process]
  rcases catchStandard (calls.files.inspect { path := path }) operation.source with
    ⟨thrown | error | node, source⟩
  · exact ⟨rfl, rfl, rfl, .thrown thrown, Or.inl rfl⟩
  · exact ⟨rfl, rfl, rfl, .failed _, Or.inl rfl⟩
  · cases node with
    | none => exact ⟨rfl, rfl, rfl, .skipped, Or.inl rfl⟩
    | some node =>
        simp only
        split_ifs
        · exact ⟨rfl, rfl, rfl, .failed _, Or.inl rfl⟩
        · exact ⟨rfl, rfl, rfl, .failed _, Or.inl rfl⟩
        · have hprocessed := @commitOnVolume_processed σ calls { operation with source := source }
            path
          exact ⟨hprocessed.files, hprocessed.volumes, hprocessed.nextFile, hprocessed.counted,
            hprocessed.commitCalls⟩

/-- What a provider has logged between two states of an operation. -/
def Logged (log : σ → List FileCommit) (before after : FileStagingCommitOperation σ) : Prop :=
  ∃ made, log after.source = log before.source ++ made ∧
    (after.commitCalls.map fun call => (call.volume, call.path)) =
      (before.commitCalls.map fun call => (call.volume, call.path)) ++
        made.map (fun commit => (commit.volume, commit.path)) ∧
    after.tally.committedFiles = before.tally.committedFiles + made.countP (·.returned)

section Logged

variable {log : σ → List FileCommit}

theorem logged_of_same {before after : FileStagingCommitOperation σ}
    (hlog : log after.source = log before.source)
    (hcalls : after.commitCalls = before.commitCalls)
    (hcommitted : after.tally.committedFiles = before.tally.committedFiles) :
    Logged log before after := by
  refine ⟨[], ?_, ?_, hcommitted⟩
  · rw [hlog, List.append_nil]
  · rw [hcalls, List.map_nil, List.append_nil]

theorem Logged.trans {first second third : FileStagingCommitOperation σ}
    (hfirst : Logged log first second) (hsecond : Logged log second third) :
    Logged log first third := by
  obtain ⟨made, hlog, hcalls, hcommitted⟩ := hfirst
  obtain ⟨more, hlog', hcalls', hcommitted'⟩ := hsecond
  refine ⟨made ++ more, ?_, ?_, ?_⟩
  · rw [hlog', hlog, List.append_assoc]
  · rw [hcalls', hcalls, List.map_append, List.append_assoc]
  · rw [hcommitted', hcommitted, List.countP_append, Nat.add_assoc]

variable (hlogs : calls.Logs log)
include hlogs

theorem commit_logged (driveLetter path : Text) (volume : VolumeRow) :
    Logged log operation (operation.commit calls driveLetter path volume).2 := by
  rw [commit]
  have hsession := hlogs.session operation.source
  generalize calls.session operation.source = opened at hsession
  rcases opened with ⟨thrown | _, source⟩
  · exact logged_of_same hsession rfl rfl
  · have hcommit := hlogs.commitFile volume path source
    dsimp only at hsession ⊢
    rw [hsession] at hcommit
    generalize calls.commitFile volume path source = committed at hcommit
    rcases committed with ⟨thrown | _, after⟩
    · have hcall : ∀ failed : FileStagingCommitOperation σ, failed.source = after →
          failed.commitCalls = operation.commitCalls ++ [⟨driveLetter, volume, path⟩] →
          failed.tally.committedFiles = operation.tally.committedFiles →
          Logged log operation failed := by
        intro failed hsource hcalls hcommitted
        refine ⟨[⟨volume, path, false⟩], ?_, ?_, hcommitted⟩
        · rw [hsource]
          exact hcommit
        · rw [hcalls, List.map_append]
          rfl
      rcases thrown with ⟨_ | _, what⟩ | what | _
      · exact hcall _ rfl rfl rfl
      · exact hcall _ rfl rfl rfl
      · exact hcall _ rfl rfl rfl
      · exact hcall _ rfl rfl rfl
    · refine ⟨[⟨volume, path, true⟩], hcommit, ?_, rfl⟩
      rw [List.map_append]
      rfl

omit hlogs in
theorem catchStandard_state {A : Type} (call : σ → Except Thrown A × σ) (source : σ) :
    (catchStandard call source).2 = (call source).2 := by
  rw [catchStandard]
  rcases call source with ⟨thrown | value, after⟩
  · cases thrown <;> rfl
  · rfl

theorem commitOnVolume_logged (path : Text) :
    Logged log operation (operation.commitOnVolume calls path).2 := by
  rw [commitOnVolume]
  have hsource : log (catchStandard (calls.volumeForPath path) operation.source).2 =
      log operation.source := by
    rw [catchStandard_state]
    exact hlogs.volumeForPath path operation.source
  generalize catchStandard (calls.volumeForPath path) operation.source = found at hsource
  rcases found with ⟨thrown | error | driveLetter, source⟩
  · exact logged_of_same hsource rfl rfl
  · exact logged_of_same hsource rfl rfl
  · dsimp only
    have hasked : Logged log operation { operation with source := source } :=
      logged_of_same hsource rfl rfl
    split
    · exact logged_of_same hsource rfl rfl
    · split_ifs
      · exact logged_of_same hsource rfl rfl
      · exact hasked.trans (commit_logged hlogs driveLetter path _)

theorem process_logged (path : Text) :
    Logged log operation (operation.process calls path).2 := by
  rw [process]
  have hsource : log (catchStandard (calls.files.inspect { path := path }) operation.source).2 =
      log operation.source := by
    rw [catchStandard_state]
    exact hlogs.inspect { path := path } operation.source
  generalize catchStandard (calls.files.inspect { path := path }) operation.source = found
    at hsource
  rcases found with ⟨thrown | error | node, source⟩
  · exact logged_of_same hsource rfl rfl
  · exact logged_of_same hsource rfl rfl
  · cases node with
    | none => exact logged_of_same hsource rfl rfl
    | some node =>
        dsimp only
        have hasked : Logged log operation { operation with source := source } :=
          logged_of_same hsource rfl rfl
        split_ifs
        · exact logged_of_same hsource rfl rfl
        · exact logged_of_same hsource rfl rfl
        · exact hasked.trans (commitOnVolume_logged hlogs path)

theorem advance_logged : Logged log operation (operation.advance calls).2 := by
  rw [advance]
  split
  · exact logged_of_same rfl rfl rfl
  · next path hpath =>
      have htaken : Logged log operation operation.takeUp := logged_of_same rfl rfl rfl
      have hprocessed := htaken.trans (@process_logged σ calls operation.takeUp log hlogs path)
      generalize operation.takeUp.process calls path = result at hprocessed
      rcases result with ⟨thrown | _, after⟩
      · exact hprocessed
      · exact hprocessed

end Logged

/-- The calls of `advance` on an operation until it is finished at the latest, with the
number of the calls that threw. -/
inductive Advances (calls : CommitterCalls σ) (start : FileStagingCommitOperation σ) :
    ℕ → FileStagingCommitOperation σ → Prop
  | start : Advances calls start 0 start
  | returned {thrown : ℕ} {operation after : FileStagingCommitOperation σ} {path : Text} :
      Advances calls start thrown operation → operation.finished = false →
      operation.advance calls = (.ok path, after) → Advances calls start thrown after
  | threw {thrown : ℕ} {operation after : FileStagingCommitOperation σ} {error : Thrown} :
      Advances calls start thrown operation → operation.finished = false →
      operation.advance calls = (.error error, after) → Advances calls start (thrown + 1) after

variable {plan : FileStagingCommitPlan} {thrown : ℕ}

/-- An operation that is not finished treats its next file. -/
theorem advance_processed (hopen : operation.finished = false) :
    ∃ path ∈ operation.files, operation.nextFile < operation.files.length ∧
      Processed calls operation.takeUp path (operation.takeUp.process calls path) ∧
      operation.advance calls = ((operation.takeUp.process calls path).1.map fun _ => path,
        (operation.takeUp.process calls path).2) := by
  rw [finished, decide_eq_false_iff_not, Nat.not_le] at hopen
  refine ⟨operation.files[operation.nextFile], List.getElem_mem hopen, hopen,
    process_processed _, ?_⟩
  rw [advance, List.getElem?_eq_getElem hopen]
  simp only
  rcases operation.takeUp.process calls operation.files[operation.nextFile] with
    ⟨error | _, after⟩
  · rfl
  · rfl

/-- A file that is counted is no longer one of those that are left. -/
theorem Accounts.count (haccounts : Accounts plan thrown operation)
    (hopen : operation.nextFile < operation.files.length)
    {after : FileStagingCommitOperation σ} {result : Except Thrown Unit}
    (hfiles : after.files = operation.files) (hvolumes : after.volumes = operation.volumes)
    (hnext : after.nextFile = operation.nextFile + 1)
    (hcounted : Counted operation.tally result after.tally) :
    Accounts plan (if result.isOk then thrown else thrown + 1) after := by
  obtain ⟨failed, hfailures, hsum⟩ := haccounts.failures
  rw [haccounts.files] at hopen
  have hleft : plan.files.length - operation.nextFile =
      plan.files.length - after.nextFile + 1 := by omega
  have hbounded : after.nextFile ≤ plan.files.length := by omega
  rw [hleft] at hsum
  rcases after with ⟨files, volumes, nextFile, tally, commitCalls, source⟩
  have hkept : files = plan.files ∧ volumes = plan.volumes :=
    ⟨hfiles.trans haccounts.files, hvolumes.trans haccounts.volumes⟩
  change Counted operation.tally result tally at hcounted
  cases hcounted with
  | committed =>
      refine ⟨hkept.1, hkept.2, hbounded, haccounts.discovered, failed, hfailures, ?_⟩
      simp only [Except.isOk, Except.toBool, if_true] at hsum ⊢
      omega
  | skipped =>
      refine ⟨hkept.1, hkept.2, hbounded, haccounts.discovered, failed, hfailures, ?_⟩
      simp only [Except.isOk, Except.toBool, if_true] at hsum ⊢
      omega
  | failed failure =>
      refine ⟨hkept.1, hkept.2, hbounded, haccounts.discovered, failed ++ [failure], ?_, ?_⟩
      · rw [hfailures, List.append_assoc]
      · simp only [Except.isOk, Except.toBool, if_true, List.length_append,
          List.length_singleton] at hsum ⊢
        omega
  | thrown error =>
      refine ⟨hkept.1, hkept.2, hbounded, haccounts.discovered, failed, hfailures, ?_⟩
      simp only [Except.isOk, Except.toBool, Bool.false_eq_true, if_false] at hsum ⊢
      omega

theorem advance_accounts (haccounts : Accounts plan thrown operation)
    (hopen : operation.finished = false) :
    Accounts plan (if (operation.advance calls).1.isOk then thrown else thrown + 1)
      (operation.advance calls).2 := by
  obtain ⟨path, -, hnext, hprocessed, hadvance⟩ := @advance_processed σ calls operation hopen
  have hcount := haccounts.count hnext hprocessed.files hprocessed.volumes hprocessed.nextFile
    hprocessed.counted
  rw [hadvance]
  rcases hresult : operation.takeUp.process calls path with ⟨error | _, after⟩
  · rw [hresult] at hcount
    exact hcount
  · rw [hresult] at hcount
    exact hcount

theorem beginCommit_accounts (hplan : plan.discoveredFiles =
    plan.files.length + plan.skippedFiles) (source : σ) :
    Accounts plan 0 (beginCommit plan source) := by
  refine ⟨rfl, rfl, Nat.zero_le _, rfl, [], (List.append_nil _).symm, ?_⟩
  rw [hplan]
  change _ = 0 + plan.skippedFiles + 0 + 0 + (plan.files.length - 0)
  omega

/-- The counts of a whole run. -/
theorem Advances.accounts {start : FileStagingCommitOperation σ}
    (hstart : Accounts plan 0 start) (hruns : Advances calls start thrown operation) :
    Accounts plan thrown operation := by
  induction hruns with
  | start => exact hstart
  | returned _ hopen hadvance ih =>
      have hstep := @advance_accounts σ calls _ _ _ ih hopen
      rw [hadvance] at hstep
      exact hstep
  | threw _ hopen hadvance ih =>
      have hstep := @advance_accounts σ calls _ _ _ ih hopen
      rw [hadvance] at hstep
      exact hstep

/-- The log of a whole run. -/
theorem Advances.logged {start : FileStagingCommitOperation σ}
    (hruns : Advances calls start thrown operation) {log : σ → List FileCommit}
    (hlogs : calls.Logs log) : Logged log start operation := by
  induction hruns with
  | start => exact logged_of_same rfl rfl rfl
  | returned _ _ hadvance ih =>
      have hstep := ih.trans (advance_logged hlogs)
      rw [hadvance] at hstep
      exact hstep
  | threw _ _ hadvance ih =>
      have hstep := ih.trans (advance_logged hlogs)
      rw [hadvance] at hstep
      exact hstep

/-- What a call of `commitFile` rests on. -/
structure Grounded (calls : CommitterCalls σ) (files : List Text) (volumes : List VolumeRow)
    (call : CommitCall) : Prop where
  scheduled : call.path ∈ files
  volume : findCurrentVolume volumes call.driveLetter = some call.volume
  isProtected : call.volume.isProtected = true
  answered : ∃ source after, calls.volumeForPath call.path source = (.ok call.driveLetter, after)

/-- The files and volumes of an operation do not change, and its calls rest on them. -/
structure Grounds (calls : CommitterCalls σ) (files : List Text) (volumes : List VolumeRow)
    (operation : FileStagingCommitOperation σ) : Prop where
  sameFiles : operation.files = files
  sameVolumes : operation.volumes = volumes
  commitCalls : ∀ call ∈ operation.commitCalls, Grounded calls files volumes call

theorem advance_grounds {files : List Text} {volumes : List VolumeRow}
    (hgrounds : Grounds calls files volumes operation) (hopen : operation.finished = false) :
    Grounds calls files volumes (operation.advance calls).2 := by
  obtain ⟨path, hpath, -, hprocessed, hadvance⟩ := @advance_processed σ calls operation hopen
  have hfiles : operation.takeUp.files = files := hgrounds.sameFiles
  have hvolumes : operation.takeUp.volumes = volumes := hgrounds.sameVolumes
  rw [hadvance]
  refine ⟨hprocessed.files.trans hfiles, hprocessed.volumes.trans hvolumes, ?_⟩
  intro call hcall
  rcases hprocessed.commitCalls with hsame | ⟨driveLetter, volume, hmore, hvolume, hprotected, hanswer⟩
  · rw [hsame] at hcall
    exact hgrounds.commitCalls call hcall
  · rw [hmore] at hcall
    rcases List.mem_append.1 hcall with hold | hlast
    · exact hgrounds.commitCalls call hold
    · rw [List.mem_singleton.1 hlast]
      refine ⟨?_, ?_, hprotected, hanswer⟩
      · rw [← hgrounds.sameFiles]
        exact hpath
      · rw [← hvolumes]
        exact hvolume

theorem Advances.grounds {start : FileStagingCommitOperation σ} {files : List Text}
    {volumes : List VolumeRow} (hstart : Grounds calls files volumes start)
    (hruns : Advances calls start thrown operation) : Grounds calls files volumes operation := by
  induction hruns with
  | start => exact hstart
  | returned _ hopen hadvance ih =>
      have hstep := @advance_grounds σ calls _ _ _ ih hopen
      rw [hadvance] at hstep
      exact hstep
  | threw _ hopen hadvance ih =>
      have hstep := @advance_grounds σ calls _ _ _ ih hopen
      rw [hadvance] at hstep
      exact hstep

end FileStagingCommitOperation

/-! ## Whole runs -/

/-- A run over a staged list: the plan, what the scan has found when it returned, and the
operation after some calls of `advance`.  Each phase begins in any state. -/
structure BatchRun (qt : Qt) (calls : CommitterCalls σ) (snapshot : VolumeSnapshot)
    (entries : List FileStagingEntry) where
  fuel : ℕ
  plan : FileStagingScanPlan
  scanned : ScanState σ
  thrown : ℕ
  start : σ
  operation : FileStagingCommitOperation σ
  prepared : ∃ source after, prepareScan qt calls snapshot entries source = (.ok plan, after)
  scanReturned : ∃ source, scan qt calls fuel plan source = (.ok (), scanned)
  advances : FileStagingCommitOperation.Advances calls
    (beginCommit scanned.scan.prepare start) thrown operation

namespace BatchRun

variable {snapshot : VolumeSnapshot} {entries : List FileStagingEntry}

theorem admits_all (exclusions : List Text) :
    ScanState.Admits qt calls (.ofExclusions qt exclusions) (fun _ => True) fun _ => True :=
  ⟨fun _ _ _ => trivial, fun _ _ _ _ _ _ _ _ _ => trivial⟩

theorem sound (run : BatchRun qt calls snapshot entries) {taken admitted : Text → Prop}
    (hadmits : ScanState.Admits qt calls (.ofExclusions qt run.plan.fileExclusions) taken admitted)
    (htaken : ∀ entry ∈ run.plan.entries, taken entry.path) :
    ScanState.Sound qt admitted run.plan.volumes run.scanned := by
  obtain ⟨source, hscan⟩ := run.scanReturned
  have hsound := scan_sound run.fuel hadmits htaken source
  rw [hscan] at hsound
  exact hsound

theorem accounts (run : BatchRun qt calls snapshot entries) :
    FileStagingCommitOperation.Accounts run.scanned.scan.prepare run.thrown run.operation :=
  run.advances.accounts (FileStagingCommitOperation.beginCommit_accounts rfl run.start)

theorem grounds (run : BatchRun qt calls snapshot entries) :
    FileStagingCommitOperation.Grounds calls run.scanned.scan.files run.scanned.scan.volumes
      run.operation :=
  run.advances.grounds ⟨rfl, rfl, fun _ hcall => absurd hcall List.not_mem_nil⟩

/-- The log of the provider has the calls that the operation lists. -/
theorem logged (run : BatchRun qt calls snapshot entries) {log : σ → List FileCommit}
    (hlogs : calls.Logs log) :
    ∃ made, log run.operation.source = log run.start ++ made ∧
      (run.operation.commitCalls.map fun call => (call.volume, call.path)) =
        made.map (fun commit => (commit.volume, commit.path)) ∧
      run.operation.tally.committedFiles = made.countP (·.returned) := by
  obtain ⟨made, hmade, hcalls, hcommitted⟩ := run.advances.logged hlogs
  refine ⟨made, hmade, hcalls, ?_⟩
  rw [hcommitted]
  exact Nat.zero_add _

/-- The counters of a result bound each other, as far as they hold what they count. -/
theorem validResult_of_counts {tally : FileStagingTally} (detail : Text)
    (hcounts : tally.committedFiles + tally.skippedFiles ≤ tally.discoveredFiles)
    (hfiles : tally.discoveredFiles < 2 ^ 63) (hfailures : tally.failures.length < 2 ^ 63) :
    ApplicationCommand.ValidResult (toApplicationCommandResult tally.result detail) := by
  have hfits : ∀ count < 2 ^ 63, (UInt64.ofNat count).toNat = count := fun count hcount =>
    UInt64.toNat_ofNat_of_lt' (hcount.trans (by decide))
  have hdiscovered := hfits tally.discoveredFiles hfiles
  have hcommitted := hfits tally.committedFiles (by omega)
  have hskipped := hfits tally.skippedFiles (by omega)
  have hfailed := hfits tally.failures.length hfailures
  have hle : UInt64.ofNat tally.committedFiles ≤ UInt64.ofNat tally.discoveredFiles := by
    rw [UInt64.le_iff_toNat_le, hcommitted, hdiscovered]
    omega
  refine ⟨hle, ?_, ?_, ?_⟩
  · change UInt64.ofNat tally.skippedFiles ≤
      UInt64.ofNat tally.discoveredFiles - UInt64.ofNat tally.committedFiles
    rw [UInt64.le_iff_toNat_le, UInt64.toNat_sub_of_le _ _ hle, hskipped, hcommitted, hdiscovered]
    omega
  · intro houtcome
    change (if tally.failures.isEmpty then _ else _) = _ at houtcome
    change UInt64.ofNat tally.failures.length = 0
    split_ifs at houtcome with hempty
    rw [List.isEmpty_iff.1 hempty]
    rfl
  · intro houtcome hzero
    change (if tally.failures.isEmpty then _ else _) = _ at houtcome
    change UInt64.ofNat tally.failures.length = 0 at hzero
    split_ifs at houtcome with hempty
    rw [hzero] at hfailed
    exact hempty (List.isEmpty_iff.2 (List.length_eq_zero_iff.1 hfailed.symm))

/-- A run schedules each file once and counts it once, as committed if a call for it has
returned, and each of its results can be sent.  A container holds fewer than `2 ^ 63` elements. -/
theorem accounting (run : BatchRun qt calls snapshot entries)
    (hseen : run.scanned.seenTargets.length < 2 ^ 63)
    (hfailures : run.operation.tally.failures.length < 2 ^ 63) :
    (run.operation.files.map qt.toCaseFolded).Nodup ∧
    (∀ file ∈ run.operation.files, ∃ raw, file = Paths.normalize qt raw) ∧
    (∃ failed, run.operation.tally.failures = run.scanned.scan.failures ++ failed ∧
      run.operation.tally.discoveredFiles =
        run.operation.tally.committedFiles + run.operation.tally.skippedFiles +
          failed.length + run.thrown +
          (run.operation.files.length - run.operation.nextFile) ∧
      (run.operation.finished = true → run.thrown = 0 →
        run.operation.tally.discoveredFiles =
          run.operation.tally.committedFiles + run.operation.tally.skippedFiles +
            failed.length)) ∧
    (∀ log, calls.Logs log → ∃ made, log run.operation.source = log run.start ++ made ∧
      run.operation.tally.committedFiles = made.countP (·.returned)) ∧
    ∀ detail,
      ApplicationCommand.validateResult
        (toApplicationCommandResult run.operation.tally.result detail) = .ok () ∧
      ∀ requestId, requestId ≠ 0 → ∃ bytes, ApplicationCommand.encodeCommandResult requestId
        (toApplicationCommandResult run.operation.tally.result detail) = .ok bytes := by
  have hsound := run.sound (admits_all run.plan.fileExclusions) fun _ _ => trivial
  have haccounts := run.accounts
  obtain ⟨failed, hfailed, hsum⟩ := haccounts.failures
  rw [← haccounts.discovered] at hsum
  have hfiles : run.operation.files = run.scanned.scan.files := haccounts.files
  rw [← haccounts.files] at hsum
  refine ⟨?_, ?_, ⟨failed, hfailed, hsum, ?_⟩, ?_, ?_⟩
  · rw [hfiles]
    exact hsound.nodup
  · rw [hfiles]
    exact hsound.normal
  · intro hfinished hthrown
    rw [FileStagingCommitOperation.finished, decide_eq_true_iff] at hfinished
    omega
  · intro log hlogs
    obtain ⟨made, hmade, -, hcommitted⟩ := run.logged hlogs
    exact ⟨made, hmade, hcommitted⟩
  · intro detail
    have hdiscovered : run.operation.tally.discoveredFiles = run.scanned.seenTargets.length := by
      rw [haccounts.discovered, hsound.counted]
      rfl
    have hvalid := validResult_of_counts detail (by omega) (hdiscovered ▸ hseen) hfailures
    exact ⟨(ApplicationCommand.validateResult_eq_ok_iff _).2 hvalid,
      fun _ hid => ApplicationCommand.exists_encodeCommandResult hid hvalid⟩

/-! A directory with two files is staged, one of them is excluded, and the other one is
staged once more. -/

def overlappingCalls : CommitterCalls (List FileCommit) where
  files :=
    { inspect := fun node state =>
        (.ok (some { node with
          kind := if node.path = "C:\\d".toList then .folder else .file }), state)
      read := fun _ state =>
        (⟨[{ path := "C:\\d\\a".toList }, { path := "C:\\d\\x".toList }], .ok []⟩, state)
      stopRequested := fun _ => false
      stop_inspect := fun _ _ hstop => hstop
      stop_read := fun _ _ hstop => hstop }
  nodeExists _ state := (.ok true, state)
  volumeForPath _ state := (.ok "C:".toList, state)
  session state := (.ok (), state)
  commitFile volume path state := (.ok (), state ++ [⟨volume, path, true⟩])

def overlappingVolumes : List VolumeRow :=
  [{ path := [], currentSession := true, driveLetter := "C:".toList, isProtected := true }]

def overlappingSnapshot : VolumeSnapshot where
  readAll := .ok overlappingVolumes
  getExclusions _ := .ok ["\\d\\x".toList]

def overlappingEntries : List FileStagingEntry :=
  [⟨.directory, "C:\\d".toList⟩, ⟨.file, "c:\\D\\A".toList⟩]

def overlappingPlan : FileStagingScanPlan where
  entries := overlappingEntries
  fileExclusions := ["C:\\d\\x".toList]
  volumes := overlappingVolumes

def overlappingScan : ScanState (List FileCommit) :=
  (scan Qt.ascii overlappingCalls 3 overlappingPlan []).2

def overlappingRun :
    BatchRun Qt.ascii overlappingCalls overlappingSnapshot overlappingEntries where
  fuel := 3
  plan := overlappingPlan
  scanned := overlappingScan
  thrown := 0
  start := []
  operation := ((beginCommit overlappingScan.scan.prepare []).advance overlappingCalls).2
  prepared := ⟨[], [], by rfl⟩
  scanReturned := ⟨[], by rfl⟩
  advances := .returned .start (by rfl) (by rfl)

theorem overlappingCalls_logs : overlappingCalls.Logs id :=
  ⟨fun _ _ => rfl, fun _ _ => rfl, fun _ => rfl, fun _ _ _ => rfl⟩

theorem accounting_overlapping :
    overlappingRun.operation.finished = true ∧ overlappingRun.operation.tally.committedFiles = 1 ∧
    (overlappingRun.operation.files.map Qt.ascii.toCaseFolded).Nodup ∧
    (∃ failed, overlappingRun.operation.tally.discoveredFiles =
      overlappingRun.operation.tally.committedFiles + overlappingRun.operation.tally.skippedFiles +
        failed) ∧
    (∃ made, overlappingRun.operation.source = made ∧
      overlappingRun.operation.tally.committedFiles = made.countP (·.returned)) ∧
    ApplicationCommand.validateResult
      (toApplicationCommandResult overlappingRun.operation.tally.result []) = .ok () := by
  obtain ⟨hnodup, -, ⟨failed, -, -, hcounts⟩, hlogged, hvalid⟩ :=
    accounting overlappingRun (by decide +kernel) (by decide +kernel)
  exact ⟨rfl, rfl, hnodup, ⟨failed.length, hcounts rfl rfl⟩, hlogged id overlappingCalls_logs,
    (hvalid []).1⟩

end BatchRun

/-! ## Exclusions -/

/-- What is relied on about the file system: reads publish normal paths only, and an
inspection keeps a normal path. -/
structure TraversalSource.KeepsNormal (qt : Qt) (source : TraversalSource σ) : Prop where
  read : ∀ node state, ∀ child ∈ (source.read node state).1.published,
    Paths.normalize qt child.path = child.path
  inspect : ∀ node state found, Paths.normalize qt node.path = node.path →
    (source.inspect node state).1 = .ok (some found) → found.path = node.path

section Exclusions

variable {exclusions : PathExclusionIndex}

/-- What a walk of the staging source finds is not excluded. -/
theorem stagingTraversalSource_leads (hnormal : calls.files.KeepsNormal qt) :
    (stagingTraversalSource qt calls.files exclusions).Leads
      (fun node => Paths.normalize qt node.path = node.path)
      fun node => Paths.normalize qt node.path = node.path ∧
        exclusions.contains qt node.path = false := by
  refine ⟨?_, hnormal.read⟩
  intro node state found hnode hinspect
  rw [stagingTraversalSource] at hinspect
  dsimp only at hinspect
  split_ifs at hinspect with hexcluded
  · cases hinspect
    refine ⟨hnode, fun hskipped => ?_⟩
    change exclusions.covering qt node.path = [] at hskipped
    rw [PathExclusionIndex.contains, hskipped] at hexcluded
    cases hexcluded
  · have hpath := hnormal.inspect node state found hnode hinspect
    rw [hpath]
    exact ⟨hnode, fun _ => ⟨hnode, Bool.eq_false_iff.2 hexcluded⟩⟩

theorem admits_unexcluded (hnormal : calls.files.KeepsNormal qt) :
    ScanState.Admits qt calls exclusions
      (fun path => Paths.normalize qt (Paths.normalize qt path) = Paths.normalize qt path)
      fun file => exclusions.contains qt file = false := by
  refine ⟨?_, ?_⟩
  · intro path hidempotent hincluded
    rw [hidempotent]
    exact hincluded
  · intro fuel path source prepared hidempotent hprepared record hrecord hstatus
    obtain ⟨hpath, hincluded⟩ := prepareCommitFrom_observed
      (stagingTraversalSource_leads hnormal) hidempotent hprepared record hrecord hstatus
    rw [hpath]
    exact hincluded

theorem readExclusions_mem {snapshot : VolumeSnapshot} {volumes : List VolumeRow}
    {fileExclusions : List Text} (hread : readExclusions qt snapshot volumes = .ok fileExclusions)
    {volume : VolumeRow} (hvolume : volume ∈ volumes) (hsession : volume.currentSession = true)
    (hprotected : volume.isProtected = true) :
    ∃ fileNames, snapshot.getExclusions volume = .ok fileNames ∧
      ∀ fileName ∈ fileNames, fileName ≠ [] →
        absoluteExclusionPath qt volume fileName ∈ fileExclusions := by
  induction volumes generalizing fileExclusions with
  | nil => exact absurd hvolume List.not_mem_nil
  | cons first rest ih =>
      rw [readExclusions] at hread
      by_cases hasked : (first.currentSession && first.isProtected) = true
      · rw [if_pos hasked] at hread
        cases hfirst : snapshot.getExclusions first with
        | error thrown =>
            rw [hfirst] at hread
            cases hread
        | ok fileNames =>
            cases hrest : readExclusions qt snapshot rest with
            | error thrown =>
                rw [hfirst, hrest] at hread
                cases hread
            | ok others =>
                rw [hfirst, hrest] at hread
                cases hread
                rcases List.mem_cons.1 hvolume with rfl | hother
                · refine ⟨fileNames, hfirst, fun fileName hmem hne => ?_⟩
                  apply List.mem_append_left
                  apply List.mem_map_of_mem
                  rw [List.mem_filter, Bool.not_eq_true', List.isEmpty_eq_false_iff]
                  exact ⟨hmem, hne⟩
                · obtain ⟨names, hnames, hcovered⟩ := ih hrest hother
                  exact ⟨names, hnames, fun fileName hmem hne =>
                    List.mem_append_right _ (hcovered fileName hmem hne)⟩
      · rw [if_neg hasked] at hread
        rcases List.mem_cons.1 hvolume with rfl | hother
        · rw [hsession, hprotected] at hasked
          exact absurd rfl hasked
        · exact ih hread hother

theorem planEntry_keeps (plan : FileStagingScanPlan) (entry : FileStagingEntry)
    (driveLetter : Except StandardError Text) :
    (planEntry qt exclusions plan entry driveLetter).volumes = plan.volumes ∧
      (planEntry qt exclusions plan entry driveLetter).fileExclusions = plan.fileExclusions := by
  unfold planEntry
  cases driveLetter with
  | error error => exact ⟨rfl, rfl⟩
  | ok driveLetter =>
      simp only
      split_ifs <;> exact ⟨rfl, rfl⟩

theorem planEntries_keeps {entries : List FileStagingEntry} {before plan : FileStagingScanPlan}
    {source after : σ}
    (hplanned : planEntries qt calls exclusions entries before source = (.ok plan, after)) :
    plan.volumes = before.volumes ∧ plan.fileExclusions = before.fileExclusions := by
  induction entries generalizing before source with
  | nil =>
      rw [planEntries, StatefulAction.pure_eq_ok] at hplanned
      rw [hplanned.1]
      exact ⟨rfl, rfl⟩
  | cons entry rest ih =>
      rw [planEntries, StatefulAction.bind_eq_ok] at hplanned
      obtain ⟨driveLetter, between, -, hrest⟩ := hplanned
      obtain ⟨hvolumes, hexclusions⟩ := ih hrest
      obtain ⟨hkept, hkept'⟩ := @planEntry_keeps qt exclusions before entry driveLetter
      exact ⟨hvolumes.trans hkept, hexclusions.trans hkept'⟩

/-- What is scanned was staged. -/
theorem planEntries_subset {entries : List FileStagingEntry} {before plan : FileStagingScanPlan}
    {source after : σ}
    (hplanned : planEntries qt calls exclusions entries before source = (.ok plan, after)) :
    ∀ entry ∈ plan.entries, entry ∈ before.entries ∨ entry ∈ entries := by
  induction entries generalizing before source with
  | nil =>
      rw [planEntries, StatefulAction.pure_eq_ok] at hplanned
      rw [hplanned.1]
      exact fun entry hentry => Or.inl hentry
  | cons first rest ih =>
      rw [planEntries, StatefulAction.bind_eq_ok] at hplanned
      obtain ⟨driveLetter, between, -, hrest⟩ := hplanned
      intro entry hentry
      rcases ih hrest entry hentry with htaken | hlater
      · have hfirst : entry ∈ before.entries ∨ entry = first := by
          unfold planEntry at htaken
          split at htaken
          · exact Or.inl htaken
          · split_ifs at htaken
            · exact Or.inl htaken
            · exact Or.inl htaken
            · rwa [List.mem_append, List.mem_singleton] at htaken
        refine hfirst.imp_right fun heq => ?_
        rw [heq]
        exact List.mem_cons_self
      · exact Or.inr (List.mem_cons_of_mem first hlater)

theorem prepareScan_subset {snapshot : VolumeSnapshot} {entries : List FileStagingEntry}
    {source after : σ} {plan : FileStagingScanPlan}
    (hprepared : prepareScan qt calls snapshot entries source = (.ok plan, after)) :
    ∀ entry ∈ plan.entries, entry ∈ entries := by
  intro entry hentry
  rw [prepareScan] at hprepared
  by_cases hnone : (entries.filter fun entry => isAbsoluteLocalFileStagingPath entry.path).isEmpty
  · rw [if_pos hnone, StatefulAction.pure_eq_ok] at hprepared
    rw [← hprepared.1] at hentry
    exact absurd hentry List.not_mem_nil
  · rw [if_neg hnone, StatefulAction.bind_eq_ok] at hprepared
    obtain ⟨volumes, first, -, hprepared⟩ := hprepared
    rw [StatefulAction.bind_eq_ok] at hprepared
    obtain ⟨fileExclusions, second, -, hplanned⟩ := hprepared
    rcases planEntries_subset hplanned entry hentry with hbefore | hcandidate
    · exact absurd hbefore List.not_mem_nil
    · exact (List.mem_filter.1 hcandidate).1

/-- The plan holds the volumes that were read and their exclusions, or it is empty. -/
theorem prepareScan_spec {snapshot : VolumeSnapshot} {entries : List FileStagingEntry}
    {source after : σ} {plan : FileStagingScanPlan}
    (hprepared : prepareScan qt calls snapshot entries source = (.ok plan, after)) :
    plan.entries = [] ∨ snapshot.readAll = .ok plan.volumes ∧
      readExclusions qt snapshot plan.volumes = .ok plan.fileExclusions := by
  rw [prepareScan] at hprepared
  by_cases hnone : (entries.filter fun entry => isAbsoluteLocalFileStagingPath entry.path).isEmpty
  · rw [if_pos hnone, StatefulAction.pure_eq_ok] at hprepared
    rw [← hprepared.1]
    exact Or.inl rfl
  · rw [if_neg hnone, StatefulAction.bind_eq_ok] at hprepared
    obtain ⟨volumes, first, hvolumes, hprepared⟩ := hprepared
    rw [StatefulAction.bind_eq_ok] at hprepared
    obtain ⟨fileExclusions, second, hexclusions, hplanned⟩ := hprepared
    obtain ⟨hkept, hkept'⟩ := planEntries_keeps hplanned
    rw [hkept, hkept']
    exact Or.inr ⟨congrArg Prod.fst hvolumes, congrArg Prod.fst hexclusions⟩

/-- The name that excludes nothing. -/
theorem contains_absoluteExclusionPath_nil (hqt : qt.ConvertsSeparators) (volume : VolumeRow)
    (path : Text) : Paths.contains qt (absoluteExclusionPath qt volume []) path = false := by
  change Paths.contains qt [] path = false
  rw [Paths.contains, Paths.native_nil hqt]
  rfl

end Exclusions

namespace BatchRun

variable {snapshot : VolumeSnapshot} {entries : List FileStagingEntry}

theorem staged (run : BatchRun qt calls snapshot entries) :
    ∀ entry ∈ run.plan.entries, entry ∈ entries := by
  obtain ⟨source, after, hprepared⟩ := run.prepared
  exact prepareScan_subset hprepared

/-- A run calls `commitFile` for a file only if the volume of the file is protected in the
current session and no exclusion of that volume covers the file.  A provider that logs its
calls has logged these and no others. -/
theorem commits_protected_unexcluded (run : BatchRun qt calls snapshot entries)
    (hqt : qt.ConvertsSeparators)
    (hidempotent : ∀ entry ∈ entries, Paths.normalize qt (Paths.normalize qt entry.path) =
      Paths.normalize qt entry.path)
    (hnormal : calls.files.KeepsNormal qt) :
    (∀ call ∈ run.operation.commitCalls,
      (∃ source after, calls.volumeForPath call.path source = (.ok call.driveLetter, after)) ∧
      call.volume.driveLetter = call.driveLetter ∧ call.volume.currentSession = true ∧
      call.volume.isProtected = true ∧
      ∃ volumes fileNames, snapshot.readAll = .ok volumes ∧ call.volume ∈ volumes ∧
        snapshot.getExclusions call.volume = .ok fileNames ∧
        ∀ fileName ∈ fileNames,
          Paths.contains qt (absoluteExclusionPath qt call.volume fileName) call.path = false) ∧
    ∀ log, calls.Logs log → ∃ made, log run.operation.source = log run.start ++ made ∧
      made.map (fun commit => (commit.volume, commit.path)) =
        run.operation.commitCalls.map fun call => (call.volume, call.path) := by
  refine ⟨fun call hcall => ?_, fun log hlogs => ?_⟩
  case refine_2 =>
    obtain ⟨made, hmade, hcalls, -⟩ := run.logged hlogs
    exact ⟨made, hmade, hcalls.symm⟩
  obtain ⟨hscheduled, hvolume, hprotected, hanswer⟩ := run.grounds.commitCalls call hcall
  have hsound := run.sound (admits_unexcluded hnormal) fun entry hentry =>
    hidempotent entry (run.staged entry hentry)
  have hincluded := hsound.admitted _ hscheduled
  have hfound := List.find?_some hvolume
  rw [Bool.and_eq_true, beq_iff_eq] at hfound
  obtain ⟨source, hscan⟩ := run.scanReturned
  obtain ⟨_, _, hprepared⟩ := run.prepared
  rcases prepareScan_spec hprepared with hempty | ⟨hread, hexclusions⟩
  · rw [scan, hempty, ScanState.scanEntries] at hscan
    rw [← (Prod.mk.inj hscan).2] at hscheduled
    exact absurd hscheduled List.not_mem_nil
  · rw [hsound.volumes] at hvolume
    have hmem := List.mem_of_find?_eq_some hvolume
    obtain ⟨fileNames, hfileNames, hcovered⟩ :=
      readExclusions_mem hexclusions hmem hfound.1 hprotected
    refine ⟨hanswer, hfound.2, hfound.1, hprotected, run.plan.volumes, fileNames, hread, hmem,
      hfileNames, fun fileName hfileName => ?_⟩
    by_cases hnil : fileName = []
    · rw [hnil]
      exact contains_absoluteExclusionPath_nil hqt _ _
    · by_contra hcontains
      rw [Bool.not_eq_false] at hcontains
      have hindexed := PathExclusionIndex.contains_of_exclusion hqt
        (hcovered fileName hfileName hnil) hcontains
      rw [hincluded] at hindexed
      cases hindexed

theorem overlappingCalls_keepsNormal : overlappingCalls.files.KeepsNormal Qt.ascii := by
  refine ⟨?_, ?_⟩
  · intro node state child hchild
    rcases List.mem_pair.1 hchild with rfl | rfl <;> rfl
  · intro node state found hnode hfound
    cases hfound
    rfl

theorem commits_protected_unexcluded_overlapping :
    overlappingRun.operation.commitCalls.map (·.path) = ["C:\\d\\a".toList] ∧
    (∀ call ∈ overlappingRun.operation.commitCalls, call.volume.isProtected = true ∧
      ∃ fileNames, overlappingSnapshot.getExclusions call.volume = .ok fileNames ∧
        ∀ fileName ∈ fileNames, Paths.contains Qt.ascii
          (absoluteExclusionPath Qt.ascii call.volume fileName) call.path = false) ∧
    ∃ made, overlappingRun.operation.source = made ∧
      made.map (fun commit => (commit.volume, commit.path)) =
        overlappingRun.operation.commitCalls.map fun call => (call.volume, call.path) := by
  obtain ⟨hcalls, hlogged⟩ := commits_protected_unexcluded overlappingRun
    Qt.ascii_convertsSeparators (fun entry _ => Paths.ascii_normalizes.idempotent entry.path trivial)
    overlappingCalls_keepsNormal
  refine ⟨rfl, fun call hcall => ?_, hlogged id overlappingCalls_logs⟩
  obtain ⟨-, -, -, hprotected, -, fileNames, -, -, hfileNames, hcovered⟩ := hcalls call hcall
  exact ⟨hprotected, fileNames, hfileNames, hcovered⟩

end BatchRun

end UwfManager
