import UwfManager.Configuration.ConfigurationExecutor

/-!
# The rule of an apply

A relation between two moments of an apply holds from its start to its end
when it is reflexive and transitive and holds across each request, each write
and each record.
-/

namespace UwfManager

variable {P : Type*}

/-- What a relation has to meet to hold across an apply.  A record changes
neither the provider nor what the journal tells of effects. -/
structure ApplyRule (ops : ProviderOperations P) (relates : Execution P → Execution P → Prop) :
    Prop where
  refl : ∀ execution, relates execution execution
  trans : ∀ {first second third}, relates first second → relates second third →
    relates first third
  journal : ∀ execution journal,
    journal.anyWriteConfirmed = execution.journal.anyWriteConfirmed →
    journal.reconciliationRequired = execution.journal.reconciliationRequired →
    relates execution ⟨journal, execution.provider⟩
  reconcile : ∀ execution,
    relates execution ⟨execution.journal.requireReconciliation, execution.provider⟩
  failed : ∀ execution request error provider context,
    ops.request request execution.provider = (.error error, provider) →
    relates execution ⟨execution.journal.recordError context error, provider⟩
  answered : ∀ execution request response provider,
    (∀ driveLetter, request ≠ .ensureNextSessionEntry driveLetter) →
    ops.request request execution.provider = (.ok response, provider) →
    relates execution ⟨execution.journal, provider⟩
  registered : ∀ execution driveLetter registration provider,
    ops.request (.ensureNextSessionEntry driveLetter) execution.provider =
      (.ok registration, provider) →
    relates execution
      ⟨execution.journal.registrationObserved registration.disposition driveLetter, provider⟩
  execute : ∀ execution context write,
    relates execution (execution.execute context (ops.write write)).2

namespace ApplyRule

variable {ops : ProviderOperations P} {relates : Execution P → Execution P → Prop}
  (rule : ApplyRule ops relates)
include rule

/-- A fold relates its ends when each of its steps does. -/
theorem foldl {σ α : Type*} (view : σ → Execution P) {step : σ → α → σ}
    (hstep : ∀ state item, relates (view state) (view (step state item))) (items : List α)
    (start : σ) : relates (view start) (view (items.foldl step start)) := by
  induction items generalizing start with
  | nil => exact rule.refl _
  | cons item rest ih => exact rule.trans (hstep start item) (ih (step start item))

theorem apply (execution : Execution P) (messages : ApplyMessages) (write : ProviderWrite)
    (ready : Bool) : relates execution (execution.apply messages (ops.write write) ready).2 := by
  rw [Execution.apply]
  cases ready with
  | false => exact rule.journal execution _ rfl rfl
  | true =>
      have hexecute := rule.execute execution messages.failure write
      rw [if_pos rfl]
      revert hexecute
      rcases execution.execute messages.failure (ops.write write) with ⟨_ | _, after⟩
      · exact fun hexecute => rule.trans hexecute (rule.journal after _ rfl rfl)
      · exact fun hexecute => hexecute

theorem applyOperation (kind : ConfigurationOperationKind) (target : Text)
    (messages : ApplyMessages) (write : ProviderWrite) (ready : Bool) (execution : Execution P) :
    relates execution (execution.applyOperation kind target messages (ops.write write) ready).2 :=
  rule.trans (rule.journal execution (execution.journal.begin kind target) rfl rfl)
    (rule.apply _ messages write ready)

theorem tryRead {request : ProviderRequest}
    (hrequest : ∀ driveLetter, request ≠ .ensureNextSessionEntry driveLetter) (context : Message)
    {action : request.Response → Execution P → Execution P}
    (haction : ∀ response execution, relates execution (action response execution))
    (execution : Execution P) :
    relates execution (tryRead ops request context action execution) := by
  rw [UwfManager.tryRead]
  cases hresult : ops.request request execution.provider with
  | mk result provider =>
      cases result with
      | error error => exact rule.failed execution request error provider context hresult
      | ok response =>
          have hanswered := rule.answered execution request response provider hrequest hresult
          exact rule.trans hanswered (haction response _)

theorem applyFilter (pending : PendingChanges) (execution : Execution P) :
    relates execution (applyFilter ops pending execution) := by
  rw [UwfManager.applyFilter]
  cases pending.setFilterEnabled with
  | none => exact rule.refl execution
  | some enable =>
      refine rule.tryRead (fun _ => by simp) _ (fun row execution => ?_) execution
      exact rule.applyOperation .filter [] _ _ true execution

theorem applyThreshold (overlay : OverlayRow) (changes : OverlayConfigDelta)
    (run : StepResult × Execution P) (step : OverlayWriteStep) :
    relates run.2 (applyThreshold ops overlay changes run step).2 := by
  simp only [UwfManager.applyThreshold]
  split_ifs
  · exact rule.applyOperation _ _ _ _ _ _
  · exact rule.applyOperation _ _ _ _ _ _

theorem applyThresholds (pending : PendingChanges) (execution : Execution P) :
    relates execution (applyThresholds ops pending execution) := by
  rw [UwfManager.applyThresholds]
  split_ifs
  · refine rule.tryRead (fun _ => by simp) _ (fun overlay execution => ?_) execution
    exact rule.foldl Prod.snd (fun run step => rule.applyThreshold overlay _ run step) _
      (StepResult.confirmed, execution)
  · exact rule.refl execution

theorem applyStorageField (next : OverlayConfigRow) (baseline : OverlayConfig)
    (changes : OverlayConfigDelta) (run : StepResult × Execution P) (step : OverlayWriteStep) :
    relates run.2 (applyStorageField ops next baseline changes run step).2 := by
  simp only [UwfManager.applyStorageField]
  by_cases htype : step.field = .type
  · rw [if_pos htype]
    exact rule.applyOperation _ _ _ _ _ _
  · rw [if_neg htype]
    split_ifs
    · exact rule.journal run.2 _ rfl rfl
    · exact rule.applyOperation _ _ _ _ _ _

theorem applyOverlayConfig (pending : PendingChanges) (snapshot : UwfSnapshot)
    (execution : Execution P) :
    relates execution (applyOverlayConfig ops pending snapshot execution) := by
  rw [UwfManager.applyOverlayConfig]
  split_ifs
  · exact rule.journal execution _ rfl rfl
  · refine rule.tryRead (fun _ => by simp) _ (fun next execution => ?_) execution
    exact rule.foldl Prod.snd (fun run step => rule.applyStorageField next _ _ run step) _
      (StepResult.confirmed, execution)
  · exact rule.refl execution

theorem getOrCreateNextVolume (dl : Text) (execution : VolumeExecution P) :
    relates execution.toExecution
      (getOrCreateNextVolume ops dl execution).2.toExecution := by
  rw [UwfManager.getOrCreateNextVolume]
  cases findNextVolume execution.volumes dl with
  | some hit => exact rule.refl _
  | none =>
      dsimp only
      split_ifs
      · exact rule.refl _
      · have hbegin := rule.journal execution.toExecution
          (execution.journal.begin .volumeRegistration dl) rfl rfl
        cases hresult : ops.request (.ensureNextSessionEntry dl) execution.provider with
        | mk result provider =>
            cases result with
            | error error => exact rule.trans hbegin (rule.failed _ _ error provider _ hresult)
            | ok registration =>
                exact rule.trans hbegin (rule.registered _ dl registration provider hresult)

/-- What goes on with the row of a volume, or leaves the volume out. -/
theorem withNextVolume (dl : Text) (execution : VolumeExecution P)
    {action : VolumeRow → VolumeExecution P → VolumeExecution P}
    (haction : ∀ row execution,
      relates execution.toExecution (action row execution).toExecution) :
    relates execution.toExecution
      (match UwfManager.getOrCreateNextVolume ops dl execution with
      | (none, execution) => execution
      | (some row, execution) => action row execution).toExecution := by
  have hvolume := rule.getOrCreateNextVolume dl execution
  revert hvolume
  rcases UwfManager.getOrCreateNextVolume ops dl execution with ⟨_ | row, after⟩
  · exact fun hvolume => hvolume
  · exact fun hvolume => rule.trans hvolume (haction row after)

theorem applyVolumeOperation (kind : ConfigurationOperationKind) (target : Text)
    (messages : ApplyMessages) (write : ProviderWrite) (execution : VolumeExecution P) :
    relates execution.toExecution
      (applyVolumeOperation ops kind target messages write execution).toExecution :=
  rule.applyOperation kind target messages write true execution.toExecution

theorem applyAddedFileExclusions (execution : VolumeExecution P) (volume : Text × List Text) :
    relates execution.toExecution
      (applyAddedFileExclusions ops execution volume).toExecution := by
  simp only [UwfManager.applyAddedFileExclusions]
  split_ifs
  · exact rule.refl _
  · refine rule.withNextVolume volume.1 execution fun row execution => ?_
    exact rule.foldl (·.toExecution) (fun state path =>
      rule.applyVolumeOperation _ _ _ _ state) _ execution

theorem applyRemovedFileExclusions (execution : VolumeExecution P) (volume : Text × List Text) :
    relates execution.toExecution
      (applyRemovedFileExclusions ops execution volume).toExecution := by
  simp only [UwfManager.applyRemovedFileExclusions]
  by_cases hempty : volume.2.isEmpty = true
  · rw [if_pos hempty]
    exact rule.refl _
  · rw [if_neg hempty]
    cases findNextVolume execution.volumes volume.1 with
    | none =>
        dsimp only
        refine rule.trans (rule.reconcile execution.toExecution)
          (rule.foldl (fun execution : VolumeExecution P => execution.toExecution)
            (fun state path => ?_) volume.2
            { execution with journal := execution.journal.requireReconciliation })
        exact rule.journal state.toExecution _ rfl rfl
    | some row =>
        exact rule.foldl (·.toExecution) (fun state path =>
          rule.applyVolumeOperation _ _ _ _ state) _ execution

theorem applyVolumes (pending : PendingChanges) (execution : Execution P) :
    relates execution (applyVolumes ops pending execution) := by
  rw [UwfManager.applyVolumes]
  split_ifs
  · exact rule.refl execution
  · refine rule.tryRead (fun _ => by simp) _ (fun volumes execution => ?_) execution
    have hview : ∀ (items : List (Text × Bool)) (start : VolumeExecution P)
        {step : VolumeExecution P → Text × Bool → VolumeExecution P},
        (∀ state item, relates state.toExecution (step state item).toExecution) →
        relates start.toExecution (items.foldl step start).toExecution :=
      fun items start _ hstep => rule.foldl (·.toExecution) hstep items start
    have hpaths : ∀ (items : List (Text × List Text)) (start : VolumeExecution P)
        {step : VolumeExecution P → Text × List Text → VolumeExecution P},
        (∀ state item, relates state.toExecution (step state item).toExecution) →
        relates start.toExecution (items.foldl step start).toExecution :=
      fun items start _ hstep => rule.foldl (·.toExecution) hstep items start
    have hprotection : ∀ state item, relates state.toExecution
        (applyVolumeProtection ops state item).toExecution := fun state item =>
      rule.withNextVolume item.1 state fun _ execution =>
        rule.applyVolumeOperation _ _ _ _ execution
    have hbinding : ∀ state item, relates state.toExecution
        (applyVolumeBinding ops state item).toExecution := fun state item =>
      rule.withNextVolume item.1 state fun _ execution =>
        rule.applyVolumeOperation _ _ _ _ execution
    have hstart := hview pending.volumeProtect
      { toExecution := execution, volumes := volumes } hprotection
    have hbound := rule.trans hstart (hview pending.volumeBindByVolumeName _ hbinding)
    have hadded := rule.trans hbound
      (hpaths pending.addFileExclusions _ rule.applyAddedFileExclusions)
    exact rule.trans hadded
      (hpaths pending.removeFileExclusions _ rule.applyRemovedFileExclusions)

theorem reportPersistence (kind : ConfigurationOperationKind) (name : String)
    (requested : Option Bool) (execution : Execution P) :
    relates execution (reportPersistence kind name requested execution) := by
  cases requested with
  | none => exact rule.refl execution
  | some value => exact rule.journal execution _ rfl rfl

theorem applyPersistence (pending : PendingChanges) (next : RegistryFilterRow)
    (execution : Execution P) :
    relates execution (applyPersistence ops pending next execution) := by
  rw [UwfManager.applyPersistence]
  by_cases hset : (pending.setPersistDomainSecretKey.isSome ||
      pending.setPersistTSCAL.isSome) = true
  · rw [if_pos hset]
    dsimp only
    generalize hjournal : (if pending.setPersistTSCAL.isSome = true then
      ApplyJournal.includeOperation _ .licensePersistence else _) = journal
    have hbegin : relates execution ⟨journal, execution.provider⟩ := by
      refine rule.journal execution journal ?_ ?_ <;> rw [← hjournal] <;> split_ifs <;> rfl
    have hdone := rule.trans hbegin (rule.execute ⟨journal, execution.provider⟩
      (.plain "✘ Failed to update registry persistence switches")
      (.setPersistence next ⟨pending.setPersistDomainSecretKey.getD next.persistDomainSecretKey,
        pending.setPersistTSCAL.getD next.persistTSCAL⟩))
    revert hdone
    rcases Execution.execute _ _ _ with ⟨_ | _, after⟩
    · exact fun hdone => rule.trans hdone
        (rule.trans (rule.reportPersistence _ _ _ after) (rule.reportPersistence _ _ _ _))
    · exact fun hdone => hdone
  · rw [if_neg hset]
    exact rule.refl execution

theorem applyRegistry (pending : PendingChanges) (execution : Execution P) :
    relates execution (applyRegistry ops pending execution) := by
  have hended := rule.journal execution execution.journal.endOperation rfl rfl
  rw [UwfManager.applyRegistry]
  split_ifs
  · exact hended
  · refine rule.trans hended (rule.tryRead (fun _ => by simp) _ (fun next execution => ?_) _)
    have hadded : relates execution (pending.addRegistryExclusions.foldl
        (applyAddedRegistryExclusion ops next) execution) :=
      rule.foldl id (fun state key => rule.applyOperation _ _ _ _ _ state) _ execution
    refine rule.trans hadded (rule.trans ?_ (rule.applyPersistence pending next _))
    exact rule.foldl id (fun state key => rule.applyOperation _ _ _ _ _ state) _ _

/-- The rule of an apply. -/
theorem applyChanges (plan : ConfigurationPlan) (execution : Execution P) :
    relates execution (applyChanges ops plan execution) := by
  have hthresholds := rule.trans (rule.applyFilter plan.changes execution)
    (rule.applyThresholds plan.changes _)
  have hoverlay := rule.trans hthresholds (rule.applyOverlayConfig plan.changes plan.snapshot _)
  have hvolumes := rule.trans hoverlay (rule.applyVolumes plan.changes _)
  exact rule.trans hvolumes (rule.applyRegistry plan.changes _)

end ApplyRule

end UwfManager
