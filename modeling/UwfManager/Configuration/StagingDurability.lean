import UwfManager.Configuration.ConfigurationExecutor

/-!
# Durability of the saved staging list

A staging result without a failure tells that the list is stored and that its
registry key survives the restart.  Two facts carry the proof: the exclusions
that the plan does not remove stay through every step of an apply, and each
addition that the journal records as succeeded is still there at the end.
-/

namespace UwfManager

variable {P : Type*} (qt : Qt) (ops : ProviderOperations P) (exclusions : P → List Text)

/-- What is relied on about the registry exclusions of the next session: an
exclusion that was added is there, and only the removal of the same key removes one. -/
structure KeepsExclusions : Prop where
  added : ∀ row key provider, (ops.write (.addRegistryExclusion row key) provider).1 = .ok () →
    key ∈ exclusions (ops.write (.addRegistryExclusion row key) provider).2
  write : ∀ write provider key, key ∈ exclusions provider →
    (∀ row removed, write = .removeRegistryExclusion row removed →
      sameKey qt key removed = false) →
    key ∈ exclusions (ops.write write provider).2
  request : ∀ request provider key, key ∈ exclusions provider →
    key ∈ exclusions (ops.request request provider).2

/-- No key of the list is the same as the given one. -/
def Apart (removed : List Text) (key : Text) : Prop :=
  ∀ other ∈ removed, sameKey qt key other = false

/-- A recorded addition that succeeded has its key among the exclusions. -/
def ConfigurationStepResult.Present (removed : List Text) (provider : P)
    (step : ConfigurationStepResult) : Prop :=
  ∀ key, step.outcome = .succeeded → step.operation = some ⟨.addRegistryExclusion, key⟩ →
    Apart qt removed key → key ∈ exclusions provider

/-- Between the two moments, exclusions apart from the removed keys were kept,
and each addition recorded as succeeded has its key among the exclusions. -/
structure Advances (removed : List Text) (before after : Execution P) : Prop where
  kept : ∀ key, Apart qt removed key → key ∈ exclusions before.provider →
    key ∈ exclusions after.provider
  recorded : ∀ step ∈ after.journal.steps, step ∈ before.journal.steps ∨
    step.Present qt exclusions removed after.provider

namespace Advances

variable {qt exclusions} {removed : List Text}

theorem refl (execution : Execution P) : Advances qt exclusions removed execution execution :=
  ⟨fun _ _ hmem => hmem, fun _ hstep => Or.inl hstep⟩

theorem trans {first second third : Execution P}
    (hfirst : Advances qt exclusions removed first second)
    (hsecond : Advances qt exclusions removed second third) :
    Advances qt exclusions removed first third := by
  refine ⟨fun key hapart hmem => hsecond.kept key hapart (hfirst.kept key hapart hmem), ?_⟩
  intro step hstep
  rcases hsecond.recorded step hstep with hbefore | hpresent
  · refine (hfirst.recorded step hbefore).imp_right fun hpresent key hsucceeded hkey hapart => ?_
    exact hsecond.kept key hapart (hpresent key hsucceeded hkey hapart)
  · exact Or.inr hpresent

/-- A fold advances when each of its steps does. -/
theorem foldl {σ α : Type*} (view : σ → Execution P) {step : σ → α → σ} (items : List α)
    (hstep : ∀ state, ∀ item ∈ items,
      Advances qt exclusions removed (view state) (view (step state item)))
    (start : σ) : Advances qt exclusions removed (view start) (view (items.foldl step start)) := by
  induction items generalizing start with
  | nil => exact refl _
  | cons item rest ih =>
      exact (hstep start item List.mem_cons_self).trans
        (ih (fun state other hother => hstep state other (List.mem_cons_of_mem item hother))
          (step start item))

/-- A journal with the same steps records nothing. -/
theorem of_steps_eq {execution : Execution P} {journal : ApplyJournal}
    (hsteps : journal.steps = execution.journal.steps) :
    Advances qt exclusions removed execution ⟨journal, execution.provider⟩ :=
  ⟨fun _ _ hmem => hmem, fun _ hstep => Or.inl (hsteps ▸ hstep)⟩

/-- The steps a record adds stand for the begun operations. -/
theorem of_recordSteps {execution : Execution P} {message : Message}
    {outcome : ConfigurationStepOutcome} {journal : ApplyJournal}
    (hsteps : journal.steps = (execution.journal.recordSteps message outcome).steps)
    (hpresent : outcome = .succeeded → ∀ operation ∈ execution.journal.operations,
      operation.kind = .addRegistryExclusion → operation.target ∈ exclusions execution.provider) :
    Advances qt exclusions removed execution ⟨journal, execution.provider⟩ := by
  refine ⟨fun _ _ hmem => hmem, fun step hstep => ?_⟩
  simp only [hsteps] at hstep
  refine (ApplyJournal.mem_recordSteps hstep).imp_right fun hnew key hsucceeded hkey _ => ?_
  exact hpresent (hnew.1.symm.trans hsucceeded) _ (hnew.2 _ hkey) rfl

theorem of_recordFailure (execution : Execution P) (message : Message) :
    Advances qt exclusions removed execution
      ⟨execution.journal.recordFailure message .failed, execution.provider⟩ :=
  of_recordSteps rfl (fun h => absurd h (by decide))

theorem of_recordError (execution : Execution P) (context : Message) (error : StandardError) :
    Advances qt exclusions removed execution
      ⟨execution.journal.recordError context error, execution.provider⟩ := by
  have hobserved : Advances qt exclusions removed execution
      ⟨execution.journal.observeEffect error, execution.provider⟩ :=
    of_steps_eq (ApplyJournal.observeEffect_steps _ error)
  exact hobserved.trans (of_recordFailure _ _)

/-- A record of success advances unless it claims an addition. -/
theorem of_recordSuccess {execution : Execution P} (message : Message)
    (hpresent : ∀ operation ∈ execution.journal.operations,
      operation.kind = .addRegistryExclusion → operation.target ∈ exclusions execution.provider) :
    Advances qt exclusions removed execution
      ⟨execution.journal.recordSuccess message, execution.provider⟩ :=
  of_recordSteps rfl (fun _ => hpresent)

section Provider

variable {ops} (hkeeps : KeepsExclusions qt ops exclusions)
include hkeeps

theorem of_request (request : ProviderRequest) (journal : ApplyJournal) (provider : P) :
    Advances qt exclusions removed ⟨journal, provider⟩
      ⟨journal, (ops.request request provider).2⟩ :=
  ⟨fun key _ hmem => hkeeps.request request provider key hmem, fun _ hstep => Or.inl hstep⟩

/-- A write that removes no key but those of the plan. -/
theorem of_write {write : ProviderWrite}
    (hremoves : ∀ row key, write = .removeRegistryExclusion row key → key ∈ removed)
    (journal : ApplyJournal) (provider : P) :
    Advances qt exclusions removed ⟨journal, provider⟩
      ⟨journal, (ops.write write provider).2⟩ :=
  ⟨fun key hapart hmem => hkeeps.write write provider key hmem
    fun row other heq => hapart other (hremoves row other heq), fun _ hstep => Or.inl hstep⟩

theorem of_execute {write : ProviderWrite}
    (hremoves : ∀ row key, write = .removeRegistryExclusion row key → key ∈ removed)
    (context : Message) (execution : Execution P) :
    Advances qt exclusions removed execution
      (execution.execute context (ops.write write)).2 := by
  have hwrite := of_write hkeeps hremoves { execution.journal with stepEffect := .none }
    execution.provider
  have hstart : Advances qt exclusions removed execution
      ⟨{ execution.journal with stepEffect := .none }, execution.provider⟩ := of_steps_eq rfl
  refine hstart.trans (hwrite.trans ?_)
  rw [Execution.execute]
  rcases ops.write write execution.provider with ⟨thrown | _, provider⟩
  · cases thrown with
    | standard error => exact of_recordError _ context error
    | other => exact of_recordFailure _ _
  · exact of_steps_eq rfl

end Provider

end Advances

namespace Advances

variable {qt exclusions ops} {removed : List Text} (hkeeps : KeepsExclusions qt ops exclusions)
include hkeeps

/-- A write under the journal; when it succeeds, the additions among the begun
operations are done. -/
theorem of_apply {write : ProviderWrite}
    (hremoves : ∀ row key, write = .removeRegistryExclusion row key → key ∈ removed)
    (messages : ApplyMessages) (ready : Bool) {execution : Execution P}
    (hadds : (ops.write write execution.provider).1 = .ok () →
      ∀ operation ∈ execution.journal.operations, operation.kind = .addRegistryExclusion →
        operation.target ∈ exclusions (ops.write write execution.provider).2) :
    Advances qt exclusions removed execution
      (execution.apply messages (ops.write write) ready).2 := by
  rw [Execution.apply]
  cases ready with
  | false => exact of_recordSteps rfl (fun h => absurd h (by decide))
  | true =>
      have hexecute := of_execute hkeeps hremoves messages.failure execution
      have hdone : (execution.execute messages.failure (ops.write write)).1 = .confirmed → _ :=
        Execution.execute_confirmed
      rw [if_pos rfl]
      revert hexecute hdone
      rcases execution.execute messages.failure (ops.write write) with ⟨_ | _, after⟩
      · intro hexecute hdone
        obtain ⟨hok, hprovider, hoperations⟩ := hdone rfl
        refine hexecute.trans (of_recordSuccess messages.success ?_)
        intro operation hmem hkind
        simp only at hoperations hprovider
        rw [hoperations] at hmem
        rw [hprovider]
        exact hadds hok operation hmem hkind
      · exact fun hexecute _ => hexecute

/-- An operation of the plan: a removal concerns a removed key, and an
operation that adds an exclusion writes it. -/
theorem of_applyOperation {kind : ConfigurationOperationKind} {target : Text}
    {write : ProviderWrite}
    (hremoves : ∀ row key, write = .removeRegistryExclusion row key → key ∈ removed)
    (hadds : kind = .addRegistryExclusion → ∃ row, write = .addRegistryExclusion row target)
    (messages : ApplyMessages) (ready : Bool) (execution : Execution P) :
    Advances qt exclusions removed execution
      (execution.applyOperation kind target messages (ops.write write) ready).2 := by
  have hbegin : Advances qt exclusions removed execution
      ⟨execution.journal.begin kind target, execution.provider⟩ := of_steps_eq rfl
  refine hbegin.trans (of_apply hkeeps hremoves messages ready ?_)
  intro hok operation hmem hkind
  obtain rfl := List.mem_singleton.1 hmem
  obtain ⟨row, rfl⟩ := hadds hkind
  exact hkeeps.added row target execution.provider hok

/-- The same for every operation that writes no registry exclusion. -/
theorem of_applyOther {kind : ConfigurationOperationKind} {target : Text} {write : ProviderWrite}
    (hremoves : ∀ row key, write ≠ .removeRegistryExclusion row key)
    (hkind : kind ≠ .addRegistryExclusion) (messages : ApplyMessages) (ready : Bool)
    (execution : Execution P) :
    Advances qt exclusions removed execution
      (execution.applyOperation kind target messages (ops.write write) ready).2 :=
  of_applyOperation hkeeps (fun row key heq => absurd heq (hremoves row key))
    (fun heq => absurd heq hkind) messages ready execution

theorem of_tryRead {request : ProviderRequest} (context : Message)
    {action : request.Response → Execution P → Execution P}
    (haction : ∀ response execution,
      Advances qt exclusions removed execution (action response execution))
    (execution : Execution P) :
    Advances qt exclusions removed execution (tryRead ops request context action execution) := by
  have hread : Advances qt exclusions removed execution
      ⟨execution.journal, (ops.request request execution.provider).2⟩ :=
    of_request hkeeps request execution.journal execution.provider
  revert hread
  rw [tryRead]
  rcases ops.request request execution.provider with ⟨error | response, provider⟩
  · exact fun hread => hread.trans (of_recordError _ context error)
  · exact fun hread => hread.trans (haction response _)

theorem of_applyFilter (pending : PendingChanges) (execution : Execution P) :
    Advances qt exclusions removed execution (applyFilter ops pending execution) := by
  rw [applyFilter]
  cases pending.setFilterEnabled with
  | none => exact refl execution
  | some enable =>
      refine of_tryRead hkeeps _ (fun row execution => of_applyOther hkeeps ?_ (by decide) _ _ _) _
      cases enable <;> exact fun _ _ => by simp

theorem of_applyThreshold (overlay : OverlayRow) (changes : OverlayConfigDelta)
    (run : StepResult × Execution P) (step : OverlayWriteStep) :
    Advances qt exclusions removed run.2 (applyThreshold ops overlay changes run step).2 := by
  simp only [applyThreshold]
  split_ifs <;> exact of_applyOther hkeeps (by simp) (by decide) _ _ _

theorem of_applyThresholds (pending : PendingChanges) (execution : Execution P) :
    Advances qt exclusions removed execution (applyThresholds ops pending execution) := by
  rw [applyThresholds]
  split_ifs
  · refine of_tryRead hkeeps _ (fun overlay execution => ?_) _
    exact foldl Prod.snd _ (fun run step _ => of_applyThreshold hkeeps overlay _ run step)
      (StepResult.confirmed, execution)
  · exact refl execution

theorem of_applyStorageField (next : OverlayConfigRow) (baseline : OverlayConfig)
    (changes : OverlayConfigDelta) (run : StepResult × Execution P) (step : OverlayWriteStep) :
    Advances qt exclusions removed run.2
      (applyStorageField ops next baseline changes run step).2 := by
  simp only [applyStorageField]
  by_cases htype : step.field = .type
  · rw [if_pos htype]
    exact of_applyOther hkeeps (by simp) (by decide) _ _ _
  · rw [if_neg htype]
    by_cases hsmall : changes.type.getD baseline.type = .disk ∧
        changes.maximumSizeMb.getD 0 < diskOverlayMinSizeMb
    · rw [if_pos hsmall]
      have hbegin : Advances qt exclusions removed run.2
          ⟨run.2.journal.begin .overlaySize [], run.2.provider⟩ := of_steps_eq rfl
      exact hbegin.trans (of_recordFailure _ _)
    · rw [if_neg hsmall]
      exact of_applyOther hkeeps (by simp) (by decide) _ _ _

theorem of_applyOverlayConfig (pending : PendingChanges) (snapshot : UwfSnapshot)
    (execution : Execution P) :
    Advances qt exclusions removed execution
      (applyOverlayConfig ops pending snapshot execution) := by
  rw [applyOverlayConfig]
  split_ifs
  · exact of_recordFailure execution _
  · refine of_tryRead hkeeps _ (fun next execution => ?_) _
    exact foldl Prod.snd _ (fun run step _ => of_applyStorageField hkeeps next _ _ run step)
      (StepResult.confirmed, execution)
  · exact refl execution

/-! ### Volumes -/

/-- Looking for a row, or registering the volume, records no addition. -/
theorem of_getOrCreateNextVolume (dl : Text) (execution : VolumeExecution P) :
    Advances qt exclusions removed execution.toExecution
      (getOrCreateNextVolume ops dl execution).2.toExecution := by
  rw [getOrCreateNextVolume]
  cases findNextVolume execution.volumes dl with
  | some hit => exact refl _
  | none =>
      simp only
      split_ifs
      · exact refl _
      · have hbegin : Advances qt exclusions removed execution.toExecution
            ⟨execution.journal.begin .volumeRegistration dl, execution.provider⟩ := of_steps_eq rfl
        have hregister := hbegin.trans
          (of_request hkeeps (.ensureNextSessionEntry dl) _ execution.provider)
        revert hregister
        rcases ops.request (.ensureNextSessionEntry dl) execution.provider with
          ⟨error | registration, provider⟩
        · exact fun hregister => hregister.trans (of_recordError _ _ error)
        · refine fun hregister => hregister.trans ⟨fun _ _ hmem => hmem, fun step hstep => ?_⟩
          refine (List.mem_append.1 hstep).imp_right fun hnew key _ hkey _ => ?_
          rw [List.mem_singleton.1 hnew] at hkey
          exact absurd hkey (by simp)

theorem of_applyVolumeOperation {kind : ConfigurationOperationKind} {target : Text}
    {write : ProviderWrite} (hremoves : ∀ row key, write ≠ .removeRegistryExclusion row key)
    (hkind : kind ≠ .addRegistryExclusion) (messages : ApplyMessages)
    (execution : VolumeExecution P) :
    Advances qt exclusions removed execution.toExecution
      (applyVolumeOperation ops kind target messages write execution).toExecution :=
  of_applyOther hkeeps hremoves hkind messages true execution.toExecution

theorem of_applyVolumeProtection (execution : VolumeExecution P) (volume : Text × Bool) :
    Advances qt exclusions removed execution.toExecution
      (applyVolumeProtection ops execution volume).toExecution := by
  have hrow : Advances qt exclusions removed execution.toExecution _ :=
    of_getOrCreateNextVolume hkeeps volume.1 execution
  revert hrow
  rw [applyVolumeProtection]
  rcases getOrCreateNextVolume ops volume.1 execution with ⟨_ | row, after⟩
  · exact id
  · refine fun hrow => hrow.trans (of_applyVolumeOperation hkeeps ?_ (by decide) _ after)
    cases volume.2 <;> exact fun _ _ => by simp

theorem of_applyVolumeBinding (execution : VolumeExecution P) (volume : Text × Bool) :
    Advances qt exclusions removed execution.toExecution
      (applyVolumeBinding ops execution volume).toExecution := by
  have hrow : Advances qt exclusions removed execution.toExecution _ :=
    of_getOrCreateNextVolume hkeeps volume.1 execution
  revert hrow
  rw [applyVolumeBinding]
  rcases getOrCreateNextVolume ops volume.1 execution with ⟨_ | row, after⟩
  · exact id
  · exact fun hrow => hrow.trans (of_applyVolumeOperation hkeeps (by simp) (by decide) _ after)

theorem of_applyAddedFileExclusions (execution : VolumeExecution P)
    (volume : Text × List Text) :
    Advances qt exclusions removed execution.toExecution
      (applyAddedFileExclusions ops execution volume).toExecution := by
  rw [applyAddedFileExclusions]
  split_ifs
  · exact refl _
  · have hrow : Advances qt exclusions removed execution.toExecution _ :=
      of_getOrCreateNextVolume hkeeps volume.1 execution
    revert hrow
    rcases getOrCreateNextVolume ops volume.1 execution with ⟨_ | row, after⟩
    · exact id
    · refine fun hrow => hrow.trans (foldl VolumeExecution.toExecution _ (fun state path _ => ?_) after)
      exact of_applyVolumeOperation hkeeps (by simp) (by decide) _ state

theorem of_applyRemovedFileExclusions (execution : VolumeExecution P)
    (volume : Text × List Text) :
    Advances qt exclusions removed execution.toExecution
      (applyRemovedFileExclusions ops execution volume).toExecution := by
  rw [applyRemovedFileExclusions]
  split_ifs
  · exact refl _
  · cases findNextVolume execution.volumes volume.1 with
    | some row =>
        exact foldl VolumeExecution.toExecution _
          (fun state path _ => of_applyVolumeOperation hkeeps (by simp) (by decide) _ state) execution
    | none =>
        have hrequire : Advances qt exclusions removed execution.toExecution
            ⟨execution.journal.requireReconciliation, execution.provider⟩ := of_steps_eq rfl
        refine hrequire.trans (foldl VolumeExecution.toExecution _ (fun state path _ => ?_)
          { execution with journal := execution.journal.requireReconciliation })
        have hbegin : Advances qt exclusions removed state.toExecution
            ⟨state.journal.begin .removeFileExclusion (volume.1 ++ path), state.provider⟩ :=
          of_steps_eq rfl
        refine hbegin.trans (of_recordSuccess _ fun operation hmem hkind => ?_)
        rw [List.mem_singleton.1 hmem] at hkind
        exact absurd hkind (by simp)

theorem of_applyVolumes (pending : PendingChanges) (execution : Execution P) :
    Advances qt exclusions removed execution (applyVolumes ops pending execution) := by
  rw [applyVolumes]
  split_ifs
  · exact refl execution
  · refine of_tryRead hkeeps _ (fun volumes execution => ?_) _
    refine (foldl VolumeExecution.toExecution pending.volumeProtect
      (fun state volume _ => of_applyVolumeProtection hkeeps state volume)
      { toExecution := execution, volumes := volumes }).trans ?_
    refine (foldl VolumeExecution.toExecution pending.volumeBindByVolumeName
      (fun state volume _ => of_applyVolumeBinding hkeeps state volume) _).trans ?_
    refine (foldl VolumeExecution.toExecution pending.addFileExclusions
      (fun state volume _ => of_applyAddedFileExclusions hkeeps state volume) _).trans ?_
    exact foldl VolumeExecution.toExecution pending.removeFileExclusions
      (fun state volume _ => of_applyRemovedFileExclusions hkeeps state volume) _

/-! ### Registry exclusions -/

omit hkeeps in
theorem of_reportPersistence {kind : ConfigurationOperationKind}
    (hkind : kind ≠ .addRegistryExclusion) (name : String) (requested : Option Bool)
    (execution : Execution P) :
    Advances qt exclusions removed execution
      (reportPersistence kind name requested execution) := by
  cases requested with
  | none => exact refl execution
  | some value =>
      have hbegin : Advances qt exclusions removed execution
          ⟨(execution.journal.begin kind []).confirmed, execution.provider⟩ := of_steps_eq rfl
      refine hbegin.trans (of_recordSuccess _ fun operation hmem heq => ?_)
      rw [List.mem_singleton.1 hmem] at heq
      exact absurd heq hkind

theorem of_applyPersistence (pending : PendingChanges) (next : RegistryFilterRow)
    (execution : Execution P) :
    Advances qt exclusions removed execution
      (applyPersistence ops pending next execution) := by
  rw [applyPersistence]
  by_cases hset : (pending.setPersistDomainSecretKey.isSome ||
      pending.setPersistTSCAL.isSome) = true
  · rw [if_pos hset]
    simp only
    generalize hjournal : (if pending.setPersistTSCAL.isSome = true then
        ApplyJournal.includeOperation _ .licensePersistence else _) = journal
    have hsame : journal.steps = execution.journal.steps := by
      rw [← hjournal]
      split_ifs <;> rfl
    have hstart : Advances qt exclusions removed execution ⟨journal, execution.provider⟩ :=
      of_steps_eq hsame
    refine hstart.trans ?_
    have hwrite : Advances qt exclusions removed ⟨journal, execution.provider⟩
        (Execution.execute (.plain "✘ Failed to update registry persistence switches")
          (ops.write (.setPersistence next
            ⟨pending.setPersistDomainSecretKey.getD next.persistDomainSecretKey,
              pending.setPersistTSCAL.getD next.persistTSCAL⟩))
          ⟨journal, execution.provider⟩).2 :=
      of_execute hkeeps (by simp) _ _
    revert hwrite
    rcases Execution.execute _ _ (Execution.mk journal execution.provider) with ⟨_ | _, after⟩
    · exact fun hwrite => hwrite.trans ((of_reportPersistence (by decide) _ _ after).trans
        (of_reportPersistence (by decide) _ _ _))
    · exact id
  · rw [if_neg hset]
    exact refl execution

theorem of_applyRegistry {pending : PendingChanges}
    (hremoved : pending.removeRegistryExclusions = removed) (execution : Execution P) :
    Advances qt exclusions removed execution (applyRegistry ops pending execution) := by
  have hend : Advances qt exclusions removed execution
      ⟨execution.journal.endOperation, execution.provider⟩ := of_steps_eq rfl
  refine hend.trans ?_
  rw [applyRegistry]
  split_ifs
  · exact refl _
  · refine of_tryRead hkeeps _ (fun next execution => ?_) _
    refine (foldl id _ (fun state k _ => ?_) execution).trans
      ((foldl id _ (fun state k hk => ?_) _).trans (of_applyPersistence hkeeps pending next _))
    · exact of_applyOperation hkeeps (by simp) (fun _ => ⟨next, rfl⟩) _ true state
    · refine of_applyOperation hkeeps (fun row key heq => ?_) (fun h => absurd h (by decide)) _
        true state
      obtain ⟨-, rfl⟩ := ProviderWrite.removeRegistryExclusion.inj heq
      exact hremoved ▸ hk

theorem of_applyChanges {plan : ConfigurationPlan}
    (hremoved : plan.changes.removeRegistryExclusions = removed) (execution : Execution P) :
    Advances qt exclusions removed execution (applyChanges ops plan execution) :=
  (of_applyFilter hkeeps plan.changes execution).trans <|
    (of_applyThresholds hkeeps plan.changes _).trans <|
      (of_applyOverlayConfig hkeeps plan.changes plan.snapshot _).trans <|
        (of_applyVolumes hkeeps plan.changes _).trans <|
          of_applyRegistry hkeeps hremoved _

end Advances

/-! ## The apply as a whole -/

section Durable

variable {S : Type*} {store : FileStagingStore S} {content : S → List FileStagingEntry}

/-- The staging step: it is confirmed when the write has no failure, and it
records a step of the staging operation only. -/
theorem saveStaging_some (writeStaging : S → FileStagingWriteResult × S) (state : S) :
    (saveStaging (some writeStaging) {} state).2.provider =
        ((writeStaging state).2, some (writeStaging state).1) ∧
      ((saveStaging (some writeStaging) {} state).1 = .confirmed ↔
        (writeStaging state).1.failure = none) ∧
      ∀ step ∈ (saveStaging (some writeStaging) {} state).2.journal.steps,
        ∀ operation, step.operation = some operation → operation = ⟨.staging, []⟩ := by
  have haction : (performStaging (some writeStaging) (state, none)).2 =
        ((writeStaging state).2, some (writeStaging state).1) ∧
      ((performStaging (some writeStaging) (state, none)).1 = .ok () ↔
        (writeStaging state).1.failure = none) := by
    simp only [performStaging]
    cases (writeStaging state).1.failure with
    | none => exact ⟨rfl, by simp⟩
    | some thrown => exact ⟨rfl, by simp⟩
  refine ⟨?_, ?_, fun step hstep => ?_⟩
  · exact (Execution.apply_provider _ _ _).trans haction.1
  · exact (Execution.apply_confirmed_iff _ _ _).trans haction.2
  · rcases Execution.mem_apply_steps hstep with hold | hnew
    · exact absurd hold List.not_mem_nil
    · exact fun operation hoperation => List.mem_singleton.1 (hnew operation hoperation)

/-- A result that counts as saved had no failure, and the plan is complete. -/
theorem completeStaging_saved {plan : ConfigurationPlan} {journal : ApplyJournal}
    {staging : FileStagingWriteResult}
    (hsaved : (completeStaging plan journal staging).failure = none) :
    staging.failure = none ∧ journal.satisfiesStagingCompletion plan = true := by
  rw [completeStaging] at hsaved
  by_cases hmissing : (staging.failure.isNone &&
      !journal.satisfiesStagingCompletion plan) = true
  · rw [if_pos hmissing] at hsaved
    exact absurd hsaved (Option.some_ne_none _)
  · rw [if_neg hmissing] at hsaved
    refine ⟨hsaved, ?_⟩
    simpa only [hsaved, Option.isNone_none, Bool.true_and, Bool.not_eq_true',
      Bool.not_eq_false] using hmissing

/-- When the plan is complete, the exclusions cover the staging root. -/
theorem covers_of_satisfies (hqt : qt.ConvertsSeparators) {pending : PendingChanges}
    {snapshot : UwfSnapshot} {edits : FileStagingChanges} (hafter : edits.after ≠ [])
    (hlong : ∀ key ∈ pending.addRegistryExclusions, RegKey.LongForm key)
    (hapart : ∀ added ∈ pending.addRegistryExclusions,
      ∀ removed ∈ pending.removeRegistryExclusions, sameKey qt added removed = false)
    {before after : Execution P}
    (hbefore : ∀ key ∈ snapshot.next.registryExclusions, key ∈ exclusions before.provider)
    (hsteps : ∀ step ∈ before.journal.steps,
      ∀ operation, step.operation = some operation → operation = ⟨.staging, []⟩)
    (hadvances : Advances qt exclusions
      (planConfiguration qt pending snapshot (some edits)).changes.removeRegistryExclusions
      before after)
    (hcomplete : after.journal.satisfiesStagingCompletion
      (planConfiguration qt pending snapshot (some edits)) = true) :
    (Paths.findCoveringExclusion qt (exclusions after.provider)
      fileStagingRegistryRoot).isEmpty = false := by
  rw [ApplyJournal.satisfiesStagingCompletion, Bool.or_eq_true, List.isEmpty_iff] at hcomplete
  rcases hcomplete with hnone | hany
  · obtain ⟨e, hmem, hcovers⟩ := Paths.exists_of_findCoveringExclusion qt
      (retained_of_no_alternatives qt hqt hafter hlong hnone)
    rw [retainedExclusions, List.mem_filter, Bool.not_eq_true', List.any_eq_false] at hmem
    refine Paths.findCoveringExclusion_of_contains hqt
      (hadvances.kept e (fun other hother => ?_) (hbefore e hmem.1)) hcovers
    exact Bool.eq_false_iff.2 (hmem.2 other hother)
  · simp only [List.any_eq_true, Bool.and_eq_true, beq_iff_eq] at hany
    obtain ⟨operation, hmem, step, hstep, hoperation, hsucceeded⟩ := hany
    obtain ⟨hkind, hadded, hcontains⟩ := mem_alternatives qt hafter hmem
    obtain ⟨kind, target⟩ := operation
    simp only at hkind hadded hcontains
    subst hkind
    have htarget : target ∈ exclusions after.provider := by
      rcases hadvances.recorded step hstep with hold | hpresent
      · exact absurd (hsteps step hold _ hoperation) (by simp)
      · exact hpresent target hsucceeded hoperation
          fun other hother => apart_of_saves qt hafter hapart hadded hother
    refine Paths.findCoveringExclusion_of_contains hqt htarget ?_
    have hplain : Qt.hasLongPathPrefix target = false := by
      rcases added_of_saves qt hafter hadded with hpending | rfl
      · exact RegKey.plain_of_longForm (hlong target hpending)
      · decide +kernel
    rwa [strip_root, Paths.contains_strip hqt hplain]

/-- A staging result without a failure is durable: its list is stored and the
exclusions of the next session cover its registry key.  Beside the exclusion
of that key, the plan changes nothing that was pending. -/
theorem executePlan_staging_durable (hqt : qt.ConvertsSeparators) (hreads : store.Reads content)
    (hkeeps : KeepsExclusions qt ops exclusions) (pending : PendingChanges)
    (snapshot : UwfSnapshot) (edits : FileStagingChanges) (provider : P) (state : S)
    (hafter : edits.after ≠ [])
    (hlong : ∀ key ∈ pending.addRegistryExclusions, RegKey.LongForm key)
    (hapart : ∀ added ∈ pending.addRegistryExclusions,
      ∀ removed ∈ pending.removeRegistryExclusions, sameKey qt added removed = false)
    (hinitial : exclusions provider = snapshot.next.registryExclusions) :
    (∀ result,
      (executePlan ops (planConfiguration qt pending snapshot (some edits))
        (some (FileStagingDraft.performWrite qt store edits)) provider state).1.staging =
          some result →
      result.failure = none →
      sameEntries qt
        (content (executePlan ops (planConfiguration qt pending snapshot (some edits))
          (some (FileStagingDraft.performWrite qt store edits)) provider state).2.2)
        edits.after = true ∧
      (Paths.findCoveringExclusion qt
        (exclusions (executePlan ops (planConfiguration qt pending snapshot (some edits))
          (some (FileStagingDraft.performWrite qt store edits)) provider state).2.1)
        fileStagingRegistryRoot).isEmpty = false) ∧
    ∃ added removed,
      (planConfiguration qt pending snapshot (some edits)).changes =
        { pending with
          addRegistryExclusions := added
          removeRegistryExclusions := removed } ∧
      (added = pending.addRegistryExclusions ∨
        added = pending.addRegistryExclusions ++ [fileStagingRegistryRoot]) ∧
      removed = pending.removeRegistryExclusions.filter
        fun key => !sameKey qt key fileStagingRegistryRoot := by
  refine ⟨fun result hresult hnone => ?_, ?_⟩
  · have hconnected : ∀ key ∈ snapshot.next.registryExclusions,
        key ∈ exclusions (ops.request .ensureConnected provider).2 := fun key hkey =>
      hkeeps.request .ensureConnected provider key (hinitial ▸ hkey)
    have hwrite := saveStaging_some (FileStagingDraft.performWrite qt store edits) state
    have hstaging := (planConfiguration_changes qt pending snapshot (some edits)).2.1
    revert hconnected hresult
    rw [executePlan]
    rcases ops.request .ensureConnected provider with ⟨error | _, connected⟩
    · exact fun hresult => absurd hresult (by simp [ApplyJournal.result])
    simp only [hstaging]
    revert hwrite
    rcases saveStaging (some (FileStagingDraft.performWrite qt store edits)) {} state with
      ⟨_ | _, journal, saved⟩
    · -- the list is saved: what is left is whether it survives the restart
      rintro ⟨hsaved, hconfirmed, hsteps⟩ hresult hconnected
      obtain rfl : saved = _ := hsaved
      have hcompleted := Option.some.inj hresult
      rw [← hcompleted] at hnone
      refine ⟨StagingWorld.performWrite_succeeded qt store hreads (hconfirmed.1 rfl), ?_⟩
      have hadvances : Advances qt exclusions
          (planConfiguration qt pending snapshot (some edits)).changes.removeRegistryExclusions
          ⟨journal, connected⟩ _ := Advances.of_applyChanges hkeeps rfl _
      exact covers_of_satisfies qt exclusions hqt hafter hlong hapart hconnected hsteps
        hadvances (completeStaging_saved hnone).2
    · rintro ⟨hsaved, hconfirmed, -⟩ hresult -
      obtain rfl : saved = _ := hsaved
      have hfailed := Option.some.inj hresult
      rw [← hfailed] at hnone
      exact absurd (hconfirmed.2 hnone) (by simp)
  · obtain ⟨-, -, added, removed, hchanges, hadded, -⟩ :=
      planConfiguration_changes qt pending snapshot (some edits)
    refine ⟨added, removed, hchanges, hadded, ?_⟩
    rw [← removed_of_saves qt hafter, hchanges]

/-- A provider that keeps a list of keys and answers every call. -/
def keyListProvider : ProviderOperations (List Text) where
  request request keys :=
    (.ok (match request with
      | .ensureConnected => ()
      | .readFilter => { path := [] }
      | .readOverlay =>
          { path := [], criticalOverlayThreshold := 0, warningOverlayThreshold := 0 }
      | .readOverlayConfig _ => { path := [], type := .ram, maximumSize := 0 }
      | .readVolumes => []
      | .ensureNextSessionEntry driveLetter =>
          ⟨{ path := [], currentSession := false, driveLetter := driveLetter }, .created⟩
      | .readRegistryFilter _ =>
          { path := [], persistDomainSecretKey := false, persistTSCAL := false }), keys)
  write write keys :=
    match write with
    | .addRegistryExclusion _ key => (.ok (), keys ++ [key])
    | .removeRegistryExclusion _ key =>
        (.ok (), keys.filter fun other => !sameKey Qt.ascii other key)
    | _ => (.ok (), keys)

theorem keyListProvider_keeps : KeepsExclusions Qt.ascii keyListProvider id where
  added row key provider _ := List.mem_append_right _ List.mem_cons_self
  write write provider key hmem hremoves := by
    cases write with
    | addRegistryExclusion row other => exact List.mem_append_left _ hmem
    | removeRegistryExclusion row other =>
        exact List.mem_filter.2 ⟨hmem, by rw [hremoves row other rfl]; rfl⟩
    | _ => exact hmem
  request _ _ _ hmem := hmem

theorem executePlan_staging_durable_keyList :
    let pending : PendingChanges :=
      { addRegistryExclusions := ["HKEY_LOCAL_MACHINE\\SOFTWARE\\HsingYun".toList]
        removeRegistryExclusions := ["HKEY_LOCAL_MACHINE\\SOFTWARE\\Other".toList] }
    let snapshot : UwfSnapshot :=
      { next := { registryExclusions := ["HKEY_LOCAL_MACHINE\\SOFTWARE\\Other".toList] } }
    let edits : FileStagingChanges := ⟨[], [⟨.file, "C:\\a".toList⟩], false⟩
    let applied := executePlan keyListProvider (planConfiguration Qt.ascii pending snapshot edits)
      (some (FileStagingDraft.performWrite Qt.ascii StagingWorld.memoryStore edits))
      snapshot.next.registryExclusions []
    sameEntries Qt.ascii applied.2.2 edits.after = true ∧
      (Paths.findCoveringExclusion Qt.ascii applied.2.1 fileStagingRegistryRoot).isEmpty =
        false := by
  intro pending snapshot edits applied
  have hdurable := (executePlan_staging_durable Qt.ascii keyListProvider id
    Qt.ascii_convertsSeparators StagingWorld.memoryStore_reads keyListProvider_keeps pending
    snapshot edits snapshot.next.registryExclusions [] (by decide) ?_ ?_ rfl).1
  · have hresult : applied.1.staging = some ⟨some edits.after, none, true⟩ := by decide +kernel
    exact hdurable _ hresult rfl
  · intro key hkey
    rw [List.mem_singleton.1 hkey]
    exact ⟨⟨"HKLM".toList, "HKEY_LOCAL_MACHINE".toList⟩, by simp [RegKey.registryHiveNames],
      "\\SOFTWARE\\HsingYun".toList, by decide +kernel, by decide +kernel⟩
  · decide +kernel

end Durable

end UwfManager
