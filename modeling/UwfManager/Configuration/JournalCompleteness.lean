import Mathlib.Algebra.BigOperators.Group.Multiset.Basic
import Mathlib.Algebra.Order.Group.Multiset
import Mathlib.Tactic.Abel
import UwfManager.Configuration.ConfigurationExecutor

/-!
# Completeness of the journal

The plan is written by separate blocks, each of which can end early.  Every
stretch of an apply accounts for a multiset of planned operations: the steps it
records stand for no others, and it records no failure exactly when it
completed them all.  Stretches compose by adding their multisets, and the
blocks of an apply add up to the operations of the plan.
-/

namespace UwfManager

/-- The operation of the plan that a step stands for.  The registration of a
volume is never planned. -/
def ConfigurationStepResult.plannedOperation (step : ConfigurationStepResult) :
    Option ConfigurationOperation :=
  step.operation.filter fun operation => operation.kind ≠ .volumeRegistration

def recordedOperations (steps : List ConfigurationStepResult) : Multiset ConfigurationOperation :=
  ↑(steps.filterMap (·.plannedOperation))

def completedOperations (steps : List ConfigurationStepResult) :
    Multiset ConfigurationOperation :=
  recordedOperations (steps.filter fun step => step.outcome = .succeeded)

section Steps

variable (first second : List ConfigurationStepResult)

@[simp] theorem recordedOperations_nil : recordedOperations [] = 0 := rfl

@[simp] theorem recordedOperations_append :
    recordedOperations (first ++ second) =
      recordedOperations first + recordedOperations second := by
  rw [recordedOperations, List.filterMap_append, ← Multiset.coe_add]
  rfl

@[simp] theorem completedOperations_append :
    completedOperations (first ++ second) =
      completedOperations first + completedOperations second := by
  rw [completedOperations, List.filter_append, recordedOperations_append]
  rfl

theorem completedOperations_le : completedOperations first ≤ recordedOperations first :=
  Multiset.coe_le.2 (List.filter_sublist.filterMap _).subperm

theorem card_completedOperations_le :
    (completedOperations first).card ≤ (recordedOperations first).card :=
  Multiset.card_le_card (completedOperations_le first)

variable {first}

theorem mem_recordedOperations {operation : ConfigurationOperation} :
    operation ∈ recordedOperations first ↔
      operation.kind ≠ .volumeRegistration ∧ ∃ step ∈ first, step.operation = some operation := by
  simp only [recordedOperations, Multiset.mem_coe, List.mem_filterMap,
    ConfigurationStepResult.plannedOperation, Option.filter_eq_some_iff, decide_eq_true_eq]
  constructor
  · rintro ⟨step, hstep, hoperation, hkind⟩
    exact ⟨hkind, step, hstep, hoperation⟩
  · rintro ⟨hkind, step, hstep, hoperation⟩
    exact ⟨step, hstep, hoperation, hkind⟩

theorem mem_completedOperations {operation : ConfigurationOperation} :
    operation ∈ completedOperations first ↔
      operation.kind ≠ .volumeRegistration ∧
        ∃ step ∈ first, step.operation = some operation ∧ step.outcome = .succeeded := by
  simp only [completedOperations, mem_recordedOperations, List.mem_filter, decide_eq_true_eq]
  constructor
  · rintro ⟨hkind, step, ⟨hstep, houtcome⟩, hoperation⟩
    exact ⟨hkind, step, hstep, hoperation, houtcome⟩
  · rintro ⟨hkind, step, hstep, hoperation, houtcome⟩
    exact ⟨hkind, step, ⟨hstep, houtcome⟩, hoperation⟩

/-- The steps that stand for a planned operation are counted by the multiset. -/
theorem count_recordedOperations {operation : ConfigurationOperation}
    (hkind : operation.kind ≠ .volumeRegistration) :
    (recordedOperations first).count operation =
      first.countP fun step => step.operation = some operation := by
  induction first with
  | nil => rfl
  | cons step rest ih =>
      rw [← List.singleton_append, recordedOperations_append, Multiset.count_add, ih,
        List.countP_append]
      congr 1
      by_cases hoperation : step.operation = some operation
      · have hplanned : step.plannedOperation = some operation :=
          Option.filter_eq_some_iff.2 ⟨hoperation, decide_eq_true hkind⟩
        simp [recordedOperations, hplanned, hoperation]
      · have hother : step.plannedOperation ≠ some operation := fun hplanned =>
          hoperation (Option.filter_eq_some_iff.1 hplanned).1
        cases hplanned : step.plannedOperation with
        | none => simp [recordedOperations, hplanned, hoperation]
        | some other =>
            rw [hplanned] at hother
            simp [recordedOperations, hplanned, hoperation,
              Ne.symm (fun h => hother (congrArg some h))]

end Steps

/-! ## The operations of a plan -/

section Planned

/-- The planned operation of a single setting. -/
def whenSet (set : Bool) (kind : ConfigurationOperationKind) : List ConfigurationOperation :=
  if set then [⟨kind, []⟩] else []

/-- The operations of a change to two settings, when one of them is changed. -/
theorem whenSet_ne_nil {first second : Bool} {early late : ConfigurationOperationKind}
    (hset : (first || second) = true) : whenSet first early ++ whenSet second late ≠ [] := by
  cases first with
  | true => exact List.cons_ne_nil _ _
  | false =>
      rw [Bool.false_or] at hset
      rw [hset]
      exact List.cons_ne_nil _ _

theorem whenSet_eq_nil {first second : Bool} {early late : ConfigurationOperationKind}
    (hset : ¬(first || second) = true) : whenSet first early ++ whenSet second late = [] := by
  rw [Bool.or_eq_true, not_or, Bool.not_eq_true, Bool.not_eq_true] at hset
  rw [hset.1, hset.2]
  rfl

theorem sum_singletons {α : Type*} (items : List α) (operation : α → ConfigurationOperation) :
    (items.map fun item => ({operation item} : Multiset ConfigurationOperation)).sum =
      ↑(items.map operation) := by
  induction items with
  | nil => rfl
  | cons item rest ih =>
      rw [List.map_cons, List.sum_cons, ih]
      rfl

/-- The planned operations of the paths of one volume. -/
def volumePaths (kind : ConfigurationOperationKind) (volume : Text × List Text) :
    List ConfigurationOperation :=
  volume.2.map fun path => ⟨kind, volume.1 ++ path⟩

/-- The planned operations of file exclusions, volume by volume. -/
def perPath (kind : ConfigurationOperationKind) (exclusions : List (Text × List Text)) :
    List ConfigurationOperation :=
  exclusions.flatMap (volumePaths kind)

theorem sum_volumePaths (kind : ConfigurationOperationKind)
    (exclusions : List (Text × List Text)) :
    (exclusions.map fun volume =>
      (↑(volumePaths kind volume) : Multiset ConfigurationOperation)).sum =
        ↑(perPath kind exclusions) := by
  induction exclusions with
  | nil => rfl
  | cons volume rest ih =>
      rw [List.map_cons, List.sum_cons, ih, perPath, perPath, List.flatMap_cons,
        ← Multiset.coe_add]

/-- The planned operations on volumes. -/
def volumeOperations (pending : PendingChanges) : List ConfigurationOperation :=
  pending.volumeProtect.map (fun volume => ⟨.volumeProtection, volume.1⟩) ++
    pending.volumeBindByVolumeName.map (fun volume => ⟨.volumeBinding, volume.1⟩) ++
    perPath .addFileExclusion pending.addFileExclusions ++
    perPath .removeFileExclusion pending.removeFileExclusions

/-- No volume is listed without a path. -/
def NoEmptyPaths (pending : PendingChanges) : Prop :=
  ∀ volume ∈ pending.addFileExclusions ++ pending.removeFileExclusions, volume.2 ≠ []

theorem perPath_eq_nil {kind : ConfigurationOperationKind}
    {exclusions : List (Text × List Text)} (hpaths : ∀ volume ∈ exclusions, volume.2 ≠ [])
    (hnil : perPath kind exclusions = []) : exclusions = [] := by
  cases exclusions with
  | nil => rfl
  | cons volume rest =>
      rw [perPath, List.flatMap_cons, List.append_eq_nil_iff, volumePaths,
        List.map_eq_nil_iff] at hnil
      exact absurd hnil.1 (hpaths volume List.mem_cons_self)

/-- Changes of volumes with a path everywhere plan an operation. -/
theorem volumeOperations_ne_nil {pending : PendingChanges} (hpaths : NoEmptyPaths pending)
    (hset : ¬(pending.volumeProtect.isEmpty && pending.volumeBindByVolumeName.isEmpty &&
      pending.addFileExclusions.isEmpty && pending.removeFileExclusions.isEmpty) = true) :
    volumeOperations pending ≠ [] := by
  intro hnil
  simp only [volumeOperations, List.append_eq_nil_iff, List.map_eq_nil_iff] at hnil
  obtain ⟨⟨⟨hprotect, hbind⟩, hadd⟩, hremove⟩ := hnil
  have hadded := perPath_eq_nil
    (fun volume hvolume => hpaths volume (List.mem_append_left _ hvolume)) hadd
  have hremoved := perPath_eq_nil
    (fun volume hvolume => hpaths volume (List.mem_append_right _ hvolume)) hremove
  exact hset (by simp [hprotect, hbind, hadded, hremoved])

/-- The planned operations on the registry. -/
def registryOperations (pending : PendingChanges) : List ConfigurationOperation :=
  pending.addRegistryExclusions.map (⟨.addRegistryExclusion, ·⟩) ++
    pending.removeRegistryExclusions.map (⟨.removeRegistryExclusion, ·⟩) ++
    (whenSet pending.setPersistDomainSecretKey.isSome .domainPersistence ++
      whenSet pending.setPersistTSCAL.isSome .licensePersistence)

theorem registryOperations_eq_nil {pending : PendingChanges} :
    (pending.addRegistryExclusions.isEmpty && pending.removeRegistryExclusions.isEmpty &&
        pending.setPersistDomainSecretKey.isNone && pending.setPersistTSCAL.isNone) = true ↔
      registryOperations pending = [] := by
  simp only [registryOperations, List.append_eq_nil_iff, List.map_eq_nil_iff, Bool.and_eq_true,
    List.isEmpty_iff, and_assoc]
  cases pending.setPersistDomainSecretKey <;> cases pending.setPersistTSCAL <;> simp [whenSet]

/-- The planned operations of everything but the staging list. -/
def changeOperations (pending : PendingChanges) : Multiset ConfigurationOperation :=
  ↑(whenSet pending.setFilterEnabled.isSome .filter) +
    ↑(whenSet pending.setOverlay.warningThresholdMb.isSome .warningThreshold ++
      whenSet pending.setOverlay.criticalThresholdMb.isSome .criticalThreshold) +
    ↑(whenSet pending.setOverlay.type.isSome .overlayType ++
      whenSet pending.setOverlay.maximumSizeMb.isSome .overlaySize) +
    ↑(volumeOperations pending) + ↑(registryOperations pending)

/-- The operations of a plan, in the order in which its blocks run. -/
theorem coe_operations (plan : ConfigurationPlan) :
    (↑plan.operations : Multiset ConfigurationOperation) =
      ↑(whenSet plan.staging.isSome .staging) + changeOperations plan.changes := by
  have hoperations : plan.operations =
      whenSet plan.staging.isSome .staging ++
        whenSet plan.changes.setFilterEnabled.isSome .filter ++
        whenSet plan.changes.setOverlay.type.isSome .overlayType ++
        whenSet plan.changes.setOverlay.maximumSizeMb.isSome .overlaySize ++
        whenSet plan.changes.setOverlay.warningThresholdMb.isSome .warningThreshold ++
        whenSet plan.changes.setOverlay.criticalThresholdMb.isSome .criticalThreshold ++
        plan.changes.volumeProtect.map (fun volume => ⟨.volumeProtection, volume.1⟩) ++
        plan.changes.volumeBindByVolumeName.map (fun volume => ⟨.volumeBinding, volume.1⟩) ++
        perPath .addFileExclusion plan.changes.addFileExclusions ++
        perPath .removeFileExclusion plan.changes.removeFileExclusions ++
        plan.changes.addRegistryExclusions.map (⟨.addRegistryExclusion, ·⟩) ++
        plan.changes.removeRegistryExclusions.map (⟨.removeRegistryExclusion, ·⟩) ++
        whenSet plan.changes.setPersistDomainSecretKey.isSome .domainPersistence ++
        whenSet plan.changes.setPersistTSCAL.isSome .licensePersistence := rfl
  rw [hoperations]
  simp only [changeOperations, volumeOperations, registryOperations, ← Multiset.coe_add]
  abel

/-- A plan of overlay writes has one operation for each changed field. -/
theorem sum_planOverlayWrites (cost : OverlayField → ConfigurationOperation)
    (baseline : OverlayConfig) (changes : OverlayConfigDelta) :
    ((planOverlayWrites baseline changes).map
        fun step => ({cost step.field} : Multiset ConfigurationOperation)).sum =
      ↑(([OverlayField.type, .maximumSize, .warningThreshold, .criticalThreshold].filter
        changes.touches).map cost) := by
  have hfields : (↑((planOverlayWrites baseline changes).map (·.field)) : Multiset OverlayField) =
      ↑([OverlayField.type, .maximumSize, .warningThreshold, .criticalThreshold].filter
        changes.touches) := by
    refine Multiset.ext.2 fun field => ?_
    rw [Multiset.coe_count, Multiset.coe_count, count_planOverlayWrites]
    cases htouches : changes.touches field with
    | true =>
        rw [List.count_filter htouches]
        cases field <;> rfl
    | false =>
        refine (List.count_eq_zero.2 fun hmem => ?_).symm
        rw [(List.mem_filter.1 hmem).2] at htouches
        exact absurd htouches (by decide)
  calc
    _ = (((planOverlayWrites baseline changes).map (·.field)).map
          fun field => ({cost field} : Multiset ConfigurationOperation)).sum := by
        rw [List.map_map]
        rfl
    _ = (↑((planOverlayWrites baseline changes).map (·.field)) : Multiset OverlayField).map cost := by
        generalize (planOverlayWrites baseline changes).map (·.field) = fields
        induction fields with
        | nil => rfl
        | cons field rest ih =>
            rw [List.map_cons, List.sum_cons, ih]
            rfl
    _ = _ := by rw [hfields, Multiset.map_coe]

def thresholdOperation (field : OverlayField) : ConfigurationOperation :=
  if field = .warningThreshold then ⟨.warningThreshold, []⟩ else ⟨.criticalThreshold, []⟩

def storageOperation (field : OverlayField) : ConfigurationOperation :=
  if field = .type then ⟨.overlayType, []⟩ else ⟨.overlaySize, []⟩

end Planned

/-! ## What a stretch of an apply accounts for -/

/-- Between the two moments the journal records steps for the planned
operations only, and it records a failure unless it completed all of them.
The converse needs that an empty plan of the stretch is not read for. -/
structure Accounts (full : Prop) (planned : Multiset ConfigurationOperation)
    (before after : ApplyJournal) : Prop where
  idle : after.operations = []
  added : ∃ added, after.steps = before.steps ++ added ∧ recordedOperations added ≤ planned ∧
    (after.failedOperations = 0 → before.failedOperations = 0 ∧
      (completedOperations added).card = planned.card) ∧
    (full → before.failedOperations = 0 → (completedOperations added).card = planned.card →
      after.failedOperations = 0)

namespace Accounts

variable {full : Prop} {planned : Multiset ConfigurationOperation}

theorem idle_and {before after : ApplyJournal} (haccounts : Accounts full planned before after) :
    after.operations = [] ∧ Accounts full planned before after := ⟨haccounts.idle, haccounts⟩

theorem failed_mono {before after : ApplyJournal} (haccounts : Accounts full planned before after)
    (hfailed : before.failedOperations ≠ 0) : after.failedOperations ≠ 0 := by
  obtain ⟨added, _, _, hclean, _⟩ := haccounts.added
  exact fun hafter => hfailed (hclean hafter).1

/-- Nothing planned and nothing done, as far as steps and failures go. -/
theorem of_unchanged {before after : ApplyJournal} (hidle : after.operations = [])
    (hsteps : after.steps = before.steps)
    (hfailed : after.failedOperations = before.failedOperations) :
    Accounts full 0 before after := by
  refine ⟨hidle, [], by simp [hsteps], le_refl 0, fun hafter => ?_, fun _ hbefore _ => ?_⟩
  · exact ⟨hfailed ▸ hafter, rfl⟩
  · exact hfailed.trans hbefore

theorem refl {journal : ApplyJournal} (hidle : journal.operations = []) :
    Accounts full 0 journal journal := of_unchanged hidle rfl rfl

/-- Only the steps and the failures of the start count. -/
theorem congr_left {before start after : ApplyJournal}
    (haccounts : Accounts full planned start after) (hsteps : start.steps = before.steps)
    (hfailed : start.failedOperations = before.failedOperations) :
    Accounts full planned before after := by
  obtain ⟨hidle, added, hadded, hrest⟩ := haccounts
  exact ⟨hidle, added, hsteps ▸ hadded, hfailed ▸ hrest⟩

theorem trans {other : Multiset ConfigurationOperation} {first second third : ApplyJournal}
    (hfirst : Accounts full planned first second) (hsecond : Accounts full other second third) :
    Accounts full (planned + other) first third := by
  obtain ⟨_, early, hearly, hearlyLe, hearlyClean, hearlySound⟩ := hfirst
  obtain ⟨hidle, late, hlate, hlateLe, hlateClean, hlateSound⟩ := hsecond
  have hearlyCard : (completedOperations early).card ≤ planned.card :=
    (card_completedOperations_le early).trans (Multiset.card_le_card hearlyLe)
  have hlateCard : (completedOperations late).card ≤ other.card :=
    (card_completedOperations_le late).trans (Multiset.card_le_card hlateLe)
  refine ⟨hidle, early ++ late, ?_, ?_, ?_, ?_⟩
  · rw [hlate, hearly, List.append_assoc]
  · rw [recordedOperations_append]
    exact add_le_add hearlyLe hlateLe
  · intro hthird
    obtain ⟨hmiddle, hlateAll⟩ := hlateClean hthird
    obtain ⟨hstart, hearlyAll⟩ := hearlyClean hmiddle
    refine ⟨hstart, ?_⟩
    rw [completedOperations_append, Multiset.card_add, Multiset.card_add, hearlyAll, hlateAll]
  · intro hfull hstart hall
    rw [completedOperations_append, Multiset.card_add, Multiset.card_add] at hall
    have hearlyAll : (completedOperations early).card = planned.card := by omega
    have hlateAll : (completedOperations late).card = other.card := by omega
    exact hlateSound hfull (hearlySound hfull hstart hearlyAll) hlateAll

/-- A stretch that leaves its operations out tells of a failure. -/
theorem of_skipped {before after : ApplyJournal} (hidle : after.operations = [])
    (added : List ConfigurationStepResult) (hsteps : after.steps = before.steps ++ added)
    (hnone : recordedOperations added = 0) (hfailed : after.failedOperations ≠ 0)
    (hplanned : full → before.failedOperations = 0 → planned ≠ 0) :
    Accounts full planned before after := by
  refine ⟨hidle, added, hsteps, hnone ▸ Multiset.zero_le planned,
    fun hafter => absurd hafter hfailed, fun hfull hbefore hall => ?_⟩
  have hcompleted : (completedOperations added).card = 0 :=
    Nat.le_zero.1 ((card_completedOperations_le added).trans (by rw [hnone, Multiset.card_zero]))
  have hzero : planned = 0 := Multiset.card_eq_zero.1 (hall.symm.trans hcompleted)
  exact absurd hzero (hplanned hfull hbefore)

/-- A stretch that failed before it began. -/
theorem of_failed {journal : ApplyJournal} (hidle : journal.operations = [])
    (hfailed : journal.failedOperations ≠ 0) : Accounts full planned journal journal :=
  of_skipped hidle [] (List.append_nil _).symm rfl hfailed fun _ hzero => absurd hzero hfailed

/-! ### Records -/

section Records

variable {operations : List ConfigurationOperation}

/-- The steps of a record are those of the begun operations. -/
theorem recordSteps_steps {journal : ApplyJournal} (hoperations : journal.operations = operations)
    (hne : operations ≠ []) (message : Message) (outcome : ConfigurationStepOutcome) :
    (journal.recordSteps message outcome).steps = journal.steps ++ operations.map
      fun operation => ⟨message, outcome, journal.stepEffect, some operation⟩ := by
  have hempty : operations.isEmpty = false := List.isEmpty_eq_false_iff.2 hne
  simp only [ApplyJournal.recordSteps, ApplyJournal.endOperation, hempty, hoperations,
    Bool.false_eq_true, if_false]

theorem recordedOperations_map (message : Message) (outcome : ConfigurationStepOutcome)
    (effect : WriteEffect)
    (hkinds : ∀ operation ∈ operations, operation.kind ≠ .volumeRegistration) :
    recordedOperations (operations.map
      fun operation => ⟨message, outcome, effect, some operation⟩) = ↑operations := by
  rw [recordedOperations, List.filterMap_map]
  congr 1
  induction operations with
  | nil => rfl
  | cons operation rest ih =>
      have hkind : operation.kind ≠ .volumeRegistration := hkinds operation List.mem_cons_self
      have hplanned : ((·.plannedOperation) ∘ fun operation =>
          (⟨message, outcome, effect, some operation⟩ : ConfigurationStepResult)) operation =
            some operation := by
        simp [ConfigurationStepResult.plannedOperation, hkind]
      rw [List.filterMap_cons_some hplanned,
        ih fun other hother => hkinds other (List.mem_cons_of_mem operation hother)]

variable (operations) (journal before : ApplyJournal)
  (hoperations : journal.operations = operations) (hsteps : journal.steps = before.steps)
  (hne : operations ≠ [])
  (hkinds : ∀ operation ∈ operations, operation.kind ≠ .volumeRegistration)

include hoperations hsteps hne hkinds

theorem of_recordSuccess (hfailed : journal.failedOperations = before.failedOperations)
    (message : Message) :
    Accounts full ↑operations before (journal.recordSuccess message) := by
  have hrecorded := recordedOperations_map message .succeeded journal.stepEffect hkinds
  have hcompleted : completedOperations (operations.map fun operation =>
      ⟨message, .succeeded, journal.stepEffect, some operation⟩) = ↑operations := by
    rw [completedOperations, List.filter_eq_self.2, hrecorded]
    intro step hstep
    obtain ⟨operation, _, rfl⟩ := List.mem_map.1 hstep
    rfl
  refine ⟨rfl, operations.map fun operation =>
    ⟨message, .succeeded, journal.stepEffect, some operation⟩, ?_, hrecorded.le, ?_, ?_⟩
  · rw [← hsteps]
    exact recordSteps_steps hoperations hne message .succeeded
  · intro hafter
    exact ⟨hfailed.symm.trans hafter, by rw [hcompleted]⟩
  · intro _ hbefore _
    exact hfailed.trans hbefore

theorem of_recordFailure (message : Message) {outcome : ConfigurationStepOutcome}
    (houtcome : outcome ≠ .succeeded) :
    Accounts full ↑operations before (journal.recordFailure message outcome) := by
  have hrecorded := recordedOperations_map message outcome journal.stepEffect hkinds
  have hcompleted : completedOperations (operations.map fun operation =>
      ⟨message, outcome, journal.stepEffect, some operation⟩) = 0 := by
    rw [completedOperations, List.filter_eq_nil_iff.2, recordedOperations_nil]
    intro step hstep
    obtain ⟨operation, _, rfl⟩ := List.mem_map.1 hstep
    simpa using houtcome
  refine ⟨rfl, operations.map fun operation =>
    ⟨message, outcome, journal.stepEffect, some operation⟩, ?_, hrecorded.le, ?_, ?_⟩
  · rw [← hsteps]
    exact recordSteps_steps hoperations hne message outcome
  · intro hafter
    exact absurd hafter (Nat.succ_ne_zero _)
  · intro _ _ hall
    rw [hcompleted, Multiset.card_zero, Multiset.coe_card] at hall
    exact absurd (List.length_eq_zero_iff.1 hall.symm) hne

theorem of_recordError (context : Message) (error : StandardError) :
    Accounts full ↑operations before (journal.recordError context error) := by
  exact of_recordFailure operations (journal.observeEffect error) before
    ((ApplyJournal.observeEffect_operations journal error).trans hoperations)
    ((ApplyJournal.observeEffect_steps journal error).trans hsteps) hne hkinds _ (by decide)

end Records

/-- A failure without a begun operation. -/
theorem of_recordFailure_idle {journal : ApplyJournal} (hidle : journal.operations = [])
    (hplanned : full → planned ≠ 0) (message : Message) (outcome : ConfigurationStepOutcome) :
    Accounts full planned journal (journal.recordFailure message outcome) := by
  refine of_skipped rfl [⟨message, outcome, journal.stepEffect, none⟩] ?_ rfl
    (Nat.succ_ne_zero _) (fun hfull _ => hplanned hfull)
  simp only [ApplyJournal.recordFailure, ApplyJournal.recordSteps, ApplyJournal.endOperation,
    hidle, List.isEmpty_nil, if_true]

theorem of_recordError_idle {journal : ApplyJournal} (hidle : journal.operations = [])
    (hplanned : full → planned ≠ 0) (context : Message) (error : StandardError) :
    Accounts full planned journal (journal.recordError context error) := by
  have hobserved : (journal.observeEffect error).failedOperations = journal.failedOperations := by
    rw [ApplyJournal.observeEffect]
    split <;> rfl
  have hrecorded : Accounts full planned (journal.observeEffect error)
      (journal.recordError context error) :=
    of_recordFailure_idle ((ApplyJournal.observeEffect_operations journal error).trans hidle)
      hplanned _ .failed
  exact hrecorded.congr_left (ApplyJournal.observeEffect_steps journal error) hobserved

/-! ### Actions under the journal -/

section Actions

variable {P : Type*}

/-- A fold accounts for what each of its steps accounts for, under an
invariant that the steps keep. -/
theorem foldl {σ α : Type*} (view : σ → ApplyJournal) (keeps : σ → Prop)
    (cost : α → Multiset ConfigurationOperation) {step : σ → α → σ} (items : List α)
    (hstep : ∀ state, ∀ item ∈ items, keeps state →
      keeps (step state item) ∧ Accounts full (cost item) (view state) (view (step state item)))
    (hidle : ∀ state, keeps state → (view state).operations = []) (start : σ)
    (hstart : keeps start) :
    keeps (items.foldl step start) ∧
      Accounts full (items.map cost).sum (view start) (view (items.foldl step start)) := by
  induction items generalizing start with
  | nil => exact ⟨hstart, refl (hidle start hstart)⟩
  | cons item rest ih =>
      obtain ⟨hkeeps, hfirst⟩ := hstep start item List.mem_cons_self hstart
      obtain ⟨hend, hrest⟩ := ih
        (fun state other hother => hstep state other (List.mem_cons_of_mem item hother))
        (step start item) hkeeps
      exact ⟨hend, by simpa using hfirst.trans hrest⟩

/-- A write under the journal stands for the begun operations, also when it is skipped. -/
theorem of_apply (execution : Execution P) (before : ApplyJournal)
    (operations : List ConfigurationOperation)
    (hoperations : execution.journal.operations = operations)
    (hsteps : execution.journal.steps = before.steps)
    (hfailed : execution.journal.failedOperations = before.failedOperations)
    (hne : operations ≠ [])
    (hkinds : ∀ operation ∈ operations, operation.kind ≠ .volumeRegistration)
    (messages : ApplyMessages) (action : P → Except Thrown Unit × P) (ready : Bool) :
    Accounts full ↑operations before (execution.apply messages action ready).2.journal := by
  rw [Execution.apply]
  cases ready with
  | false =>
      exact of_recordFailure operations execution.journal before hoperations hsteps hne hkinds _
        (by decide)
  | true =>
      rw [if_pos rfl, Execution.execute]
      rcases action execution.provider with ⟨(error | _) | _, provider⟩
      · exact of_recordError operations { execution.journal with stepEffect := .none } before
          hoperations hsteps hne hkinds messages.failure error
      · exact of_recordFailure operations { execution.journal with stepEffect := .none } before
          hoperations hsteps hne hkinds _ (by decide)
      · exact of_recordSuccess operations
          { execution.journal with
            stepEffect := .confirmed
            anyWriteConfirmed := true
            reconciliationRequired := true }
          before hoperations hsteps hne hkinds hfailed messages.success

theorem of_applyOperation {kind : ConfigurationOperationKind} (hkind : kind ≠ .volumeRegistration)
    (target : Text) (messages : ApplyMessages) (action : P → Except Thrown Unit × P) (ready : Bool)
    (execution : Execution P) :
    Accounts full {⟨kind, target⟩} execution.journal
      (execution.applyOperation kind target messages action ready).2.journal := by
  have hkinds : ∀ operation ∈ [(⟨kind, target⟩ : ConfigurationOperation)],
      operation.kind ≠ .volumeRegistration := List.forall_mem_singleton.2 hkind
  exact of_apply ⟨execution.journal.begin kind target, execution.provider⟩ execution.journal
    [⟨kind, target⟩] rfl rfl rfl (List.cons_ne_nil _ _) hkinds messages action ready

/-- An operation that needs no write of its own. -/
theorem of_succeededOperation {kind : ConfigurationOperationKind}
    (hkind : kind ≠ .volumeRegistration) (target : Text) (message : Message)
    (before : ApplyJournal) :
    Accounts full {⟨kind, target⟩} before ((before.begin kind target).recordSuccess message) := by
  have hkinds : ∀ operation ∈ [(⟨kind, target⟩ : ConfigurationOperation)],
      operation.kind ≠ .volumeRegistration := List.forall_mem_singleton.2 hkind
  exact of_recordSuccess [⟨kind, target⟩] (before.begin kind target) before rfl rfl
    (List.cons_ne_nil _ _) hkinds rfl message

/-- An operation that is refused before its write. -/
theorem of_failedOperation {kind : ConfigurationOperationKind} (hkind : kind ≠ .volumeRegistration)
    (target : Text) (message : Message) (before : ApplyJournal) :
    Accounts full {⟨kind, target⟩} before
      ((before.begin kind target).recordFailure message .failed) := by
  have hkinds : ∀ operation ∈ [(⟨kind, target⟩ : ConfigurationOperation)],
      operation.kind ≠ .volumeRegistration := List.forall_mem_singleton.2 hkind
  exact of_recordFailure [⟨kind, target⟩] (before.begin kind target) before rfl rfl
    (List.cons_ne_nil _ _) hkinds message (by decide)

variable {ops : ProviderOperations P}

theorem of_tryRead {request : ProviderRequest} (context : Message)
    {action : request.Response → Execution P → Execution P} {execution : Execution P}
    (hidle : execution.journal.operations = []) (hplanned : full → planned ≠ 0)
    (haction : ∀ response provider, Accounts full planned execution.journal
      (action response ⟨execution.journal, provider⟩).journal) :
    Accounts full planned execution.journal
      (tryRead ops request context action execution).journal := by
  rw [tryRead]
  rcases ops.request request execution.provider with ⟨error | response, provider⟩
  · exact of_recordError_idle hidle hplanned context error
  · exact haction response provider

end Actions

/-! ### Filter and overlay -/

section Blocks

variable {P : Type*} (ops : ProviderOperations P) {execution : Execution P}

theorem of_applyFilter (hidle : execution.journal.operations = []) (pending : PendingChanges) :
    Accounts full ↑(whenSet pending.setFilterEnabled.isSome .filter) execution.journal
      (applyFilter ops pending execution).journal := by
  rw [applyFilter]
  cases pending.setFilterEnabled with
  | none => exact refl hidle
  | some enable =>
      refine of_tryRead _ hidle (fun _ => Multiset.singleton_ne_zero _) ?_
      exact fun row provider =>
        of_applyOperation (by decide) [] _ _ true ⟨execution.journal, provider⟩

/-- The fold of a plan of overlay writes accounts for the fields it writes. -/
theorem foldl_planOverlayWrites (cost : OverlayField → ConfigurationOperation)
    {step : StepResult × Execution P → OverlayWriteStep → StepResult × Execution P}
    (hstep : ∀ run write, Accounts full {cost write.field} run.2.journal (step run write).2.journal)
    (execution : Execution P) (hidle : execution.journal.operations = []) (baseline : OverlayConfig)
    (changes : OverlayConfigDelta) :
    Accounts full ↑(([OverlayField.type, .maximumSize, .warningThreshold, .criticalThreshold].filter
        changes.touches).map cost) execution.journal
      ((planOverlayWrites baseline changes).foldl step (.confirmed, execution)).2.journal := by
  rw [← sum_planOverlayWrites cost baseline changes]
  refine (foldl (fun run : StepResult × Execution P => run.2.journal)
    (fun run => run.2.journal.operations = []) (fun write : OverlayWriteStep => {cost write.field})
    _ ?_
    (fun _ hkeeps => hkeeps) (.confirmed, execution) hidle).2
  exact fun run write _ _ => (hstep run write).idle_and

theorem of_applyThreshold (overlay : OverlayRow) (changes : OverlayConfigDelta)
    (run : StepResult × Execution P) (write : OverlayWriteStep) :
    Accounts full {thresholdOperation write.field} run.2.journal
      (applyThreshold ops overlay changes run write).2.journal := by
  simp only [applyThreshold, thresholdOperation]
  split_ifs
  · exact of_applyOperation (by decide) _ _ _ _ _
  · exact of_applyOperation (by decide) _ _ _ _ _

theorem of_applyThresholds (hidle : execution.journal.operations = [])
    (pending : PendingChanges) :
    Accounts full ↑(whenSet pending.setOverlay.warningThresholdMb.isSome .warningThreshold ++
        whenSet pending.setOverlay.criticalThresholdMb.isSome .criticalThreshold)
      execution.journal (applyThresholds ops pending execution).journal := by
  rw [applyThresholds]
  generalize pending.setOverlay.warningThresholdMb = warning
  generalize pending.setOverlay.criticalThresholdMb = critical
  have hplanned : ([OverlayField.type, .maximumSize, .warningThreshold, .criticalThreshold].filter
      (OverlayConfigDelta.touches ⟨none, none, warning, critical⟩)).map thresholdOperation =
        whenSet warning.isSome .warningThreshold ++ whenSet critical.isSome .criticalThreshold := by
    cases warning <;> cases critical <;> rfl
  split_ifs with hset
  · refine of_tryRead _ hidle
      (fun _ hzero => whenSet_ne_nil hset ((Multiset.coe_eq_zero _).1 hzero)) ?_
    intro overlay provider
    rw [← hplanned]
    exact foldl_planOverlayWrites thresholdOperation
      (of_applyThreshold ops overlay ⟨none, none, warning, critical⟩)
      ⟨execution.journal, provider⟩ hidle _ _
  · rw [whenSet_eq_nil hset]
    exact refl hidle

theorem of_applyStorageField (next : OverlayConfigRow) (baseline : OverlayConfig)
    (changes : OverlayConfigDelta) (run : StepResult × Execution P) (write : OverlayWriteStep) :
    Accounts full {storageOperation write.field} run.2.journal
      (applyStorageField ops next baseline changes run write).2.journal := by
  simp only [applyStorageField, storageOperation]
  by_cases htype : write.field = .type
  · rw [if_pos htype, if_pos htype]
    exact of_applyOperation (by decide) _ _ _ _ _
  · rw [if_neg htype, if_neg htype]
    split_ifs
    · exact of_failedOperation (by decide) [] _ run.2.journal
    · exact of_applyOperation (by decide) _ _ _ _ _

theorem of_applyOverlayConfig (hidle : execution.journal.operations = [])
    (pending : PendingChanges) (snapshot : UwfSnapshot) :
    Accounts full ↑(whenSet pending.setOverlay.type.isSome .overlayType ++
        whenSet pending.setOverlay.maximumSizeMb.isSome .overlaySize)
      execution.journal (applyOverlayConfig ops pending snapshot execution).journal := by
  rw [applyOverlayConfig, OverlayConfigDelta.touchesOverlayConfig]
  generalize pending.setOverlay.type = type
  generalize pending.setOverlay.maximumSizeMb = size
  have hplanned : ([OverlayField.type, .maximumSize, .warningThreshold, .criticalThreshold].filter
      (OverlayConfigDelta.touches ⟨type, size, none, none⟩)).map storageOperation =
        whenSet type.isSome .overlayType ++ whenSet size.isSome .overlaySize := by
    cases type <;> cases size <;> rfl
  split_ifs with hset hfilter
  · exact of_recordFailure_idle hidle
      (fun _ hzero => whenSet_ne_nil hset ((Multiset.coe_eq_zero _).1 hzero)) _ .failed
  · refine of_tryRead _ hidle
      (fun _ hzero => whenSet_ne_nil hset ((Multiset.coe_eq_zero _).1 hzero)) ?_
    intro next provider
    rw [← hplanned]
    exact foldl_planOverlayWrites storageOperation
      (of_applyStorageField ops next _ ⟨type, size, none, none⟩)
      ⟨execution.journal, provider⟩ hidle _ _
  · rw [whenSet_eq_nil hset]
    exact refl hidle

/-! ### Volumes -/

/-- Between two volumes no operation is begun, and a registration that failed
was recorded. -/
structure BetweenVolumes (execution : VolumeExecution P) : Prop where
  idle : execution.journal.operations = []
  recorded : execution.registrationFailures ≠ [] → execution.journal.failedOperations ≠ 0

/-- Without a row the operations are left out, and a failure has told why. -/
theorem of_getOrCreateNextVolume (dl : Text) {execution : VolumeExecution P}
    (hbetween : BetweenVolumes execution) :
    BetweenVolumes (getOrCreateNextVolume ops dl execution).2 ∧
      ((getOrCreateNextVolume ops dl execution).1 = none → ∀ planned, planned ≠ 0 →
        Accounts full planned execution.journal
          (getOrCreateNextVolume ops dl execution).2.journal) ∧
      (∀ row, (getOrCreateNextVolume ops dl execution).1 = some row →
        Accounts full 0 execution.journal
          (getOrCreateNextVolume ops dl execution).2.journal) := by
  rw [getOrCreateNextVolume]
  cases findNextVolume execution.volumes dl with
  | some hit => exact ⟨hbetween, fun h => (by cases h), fun _ _ => refl hbetween.idle⟩
  | none =>
      dsimp only
      by_cases hknown : execution.registrationFailures.contains dl = true
      · rw [if_pos hknown]
        have hne : execution.registrationFailures ≠ [] := by
          rintro hnil
          rw [hnil] at hknown
          exact absurd hknown (by simp)
        exact ⟨hbetween, fun _ _ _ => of_failed hbetween.idle (hbetween.recorded hne),
          fun _ h => (by cases h)⟩
      · rw [if_neg hknown]
        rcases ops.request (.ensureNextSessionEntry dl) execution.provider with
          ⟨error | registration, provider⟩
        · have hskipped : ∀ planned, planned ≠ 0 → Accounts full planned execution.journal
              ((execution.journal.begin .volumeRegistration dl).recordError
                (.withArgs "✘ Volume %1: failed to register with UWF" [.literal dl]) error) := by
            intro planned hplanned
            have hbegin := ApplyJournal.observeEffect_steps
              (execution.journal.begin .volumeRegistration dl) error
            have hsteps := recordSteps_steps (ApplyJournal.observeEffect_operations
              (execution.journal.begin .volumeRegistration dl) error) (List.cons_ne_nil _ _)
            rw [hbegin] at hsteps
            exact of_skipped rfl _ (hsteps _ .failed) rfl (Nat.succ_ne_zero _) fun _ _ => hplanned
          exact ⟨⟨rfl, fun _ => Nat.succ_ne_zero _⟩, fun _ => hskipped, fun _ h => (by cases h)⟩
        · refine ⟨⟨rfl, hbetween.recorded⟩, fun h => (by cases h), fun _ _ => ⟨rfl, _, rfl, ?_⟩⟩
          exact ⟨le_refl 0, fun hafter => ⟨hafter, rfl⟩, fun _ hbefore _ => hbefore⟩

/-- An operation on a volume; the failed registrations stay recorded. -/
theorem of_applyVolumeOperation {kind : ConfigurationOperationKind}
    (hkind : kind ≠ .volumeRegistration) (target : Text) (messages : ApplyMessages)
    (write : ProviderWrite) {execution : VolumeExecution P} (hbetween : BetweenVolumes execution) :
    BetweenVolumes (applyVolumeOperation ops kind target messages write execution) ∧
      Accounts full {⟨kind, target⟩} execution.journal
        (applyVolumeOperation ops kind target messages write execution).journal := by
  have haccounts : Accounts full {⟨kind, target⟩} execution.journal
      (applyVolumeOperation ops kind target messages write execution).journal :=
    of_applyOperation hkind target messages (ops.write write) true execution.toExecution
  refine ⟨⟨haccounts.idle, fun hfailures => ?_⟩, haccounts⟩
  exact haccounts.failed_mono (hbetween.recorded hfailures)

/-- What goes on with the row of a volume, or leaves the volume out. -/
theorem of_withNextVolume (dl : Text) {execution : VolumeExecution P}
    (hbetween : BetweenVolumes execution) (hplanned : planned ≠ 0)
    {action : VolumeRow → VolumeExecution P → VolumeExecution P}
    (haction : ∀ row execution, BetweenVolumes execution → BetweenVolumes (action row execution) ∧
      Accounts full planned execution.journal (action row execution).journal) :
    BetweenVolumes
        (match getOrCreateNextVolume ops dl execution with
        | (none, execution) => execution
        | (some row, execution) => action row execution) ∧
      Accounts full planned execution.journal
        (match getOrCreateNextVolume ops dl execution with
        | (none, execution) => execution
        | (some row, execution) => action row execution).journal := by
  have hvolume := @of_getOrCreateNextVolume full P ops dl execution hbetween
  revert hvolume
  rcases getOrCreateNextVolume ops dl execution with ⟨_ | row, after⟩
  · exact fun hvolume => ⟨hvolume.1, hvolume.2.1 rfl planned hplanned⟩
  · intro hvolume
    have hdone := haction row after hvolume.1
    refine ⟨hdone.1, ?_⟩
    have hjoined := (hvolume.2.2 row rfl).trans hdone.2
    rwa [zero_add] at hjoined

theorem of_applyVolumeProtection {execution : VolumeExecution P}
    (hbetween : BetweenVolumes execution) (volume : Text × Bool) :
    BetweenVolumes (applyVolumeProtection ops execution volume) ∧
      Accounts full {⟨.volumeProtection, volume.1⟩} execution.journal
        (applyVolumeProtection ops execution volume).journal :=
  of_withNextVolume ops volume.1 hbetween (Multiset.singleton_ne_zero _)
    fun _ _ hbetween => of_applyVolumeOperation ops (by decide) _ _ _ hbetween

theorem of_applyVolumeBinding {execution : VolumeExecution P}
    (hbetween : BetweenVolumes execution) (volume : Text × Bool) :
    BetweenVolumes (applyVolumeBinding ops execution volume) ∧
      Accounts full {⟨.volumeBinding, volume.1⟩} execution.journal
        (applyVolumeBinding ops execution volume).journal :=
  of_withNextVolume ops volume.1 hbetween (Multiset.singleton_ne_zero _)
    fun _ _ hbetween => of_applyVolumeOperation ops (by decide) _ _ _ hbetween

/-- A fold over the paths of a volume, one operation each. -/
theorem foldl_paths {kind : ConfigurationOperationKind} (volume : Text × List Text)
    {step : VolumeExecution P → Text → VolumeExecution P}
    (hstep : ∀ execution path, BetweenVolumes execution → BetweenVolumes (step execution path) ∧
      Accounts full {⟨kind, volume.1 ++ path⟩} execution.journal (step execution path).journal)
    {execution : VolumeExecution P} (hbetween : BetweenVolumes execution) :
    BetweenVolumes (volume.2.foldl step execution) ∧
      Accounts full ↑(volumePaths kind volume) execution.journal
        (volume.2.foldl step execution).journal := by
  rw [volumePaths, ← sum_singletons]
  exact foldl (fun execution : VolumeExecution P => execution.journal) BetweenVolumes
    (fun path => {⟨kind, volume.1 ++ path⟩}) volume.2 (fun state path _ => hstep state path)
    (fun _ hkeeps => hkeeps.idle) execution hbetween

theorem of_applyAddedFileExclusions {execution : VolumeExecution P}
    (hbetween : BetweenVolumes execution) (volume : Text × List Text) :
    BetweenVolumes (applyAddedFileExclusions ops execution volume) ∧
      Accounts full ↑(volumePaths .addFileExclusion volume) execution.journal
        (applyAddedFileExclusions ops execution volume).journal := by
  simp only [applyAddedFileExclusions]
  by_cases hempty : volume.2.isEmpty = true
  · rw [if_pos hempty, volumePaths, List.isEmpty_iff.1 hempty]
    exact ⟨hbetween, refl hbetween.idle⟩
  · rw [if_neg hempty]
    refine of_withNextVolume ops volume.1 hbetween ?_ fun row execution hbetween =>
      foldl_paths volume
        (fun _ _ hbetween => of_applyVolumeOperation ops (by decide) _ _ _ hbetween) hbetween
    rw [Ne, Multiset.coe_eq_zero, volumePaths, List.map_eq_nil_iff, ← List.isEmpty_iff]
    exact hempty

/-- A removal that finds nothing to remove has succeeded. -/
theorem of_alreadyAbsent (dl path : Text) {execution : VolumeExecution P}
    (hbetween : BetweenVolumes execution) :
    let journal := (execution.journal.begin .removeFileExclusion (dl ++ path)).recordSuccess
      (.withArgs "✓ Volume %1 file exclusion already absent: %2" [.literal dl, .literal path])
    BetweenVolumes { execution with journal := journal } ∧
      Accounts full {⟨.removeFileExclusion, dl ++ path⟩} execution.journal journal := by
  refine ⟨⟨rfl, hbetween.recorded⟩, ?_⟩
  exact of_succeededOperation (by decide) (dl ++ path) _ execution.journal

theorem of_applyRemovedFileExclusions {execution : VolumeExecution P}
    (hbetween : BetweenVolumes execution) (volume : Text × List Text) :
    BetweenVolumes (applyRemovedFileExclusions ops execution volume) ∧
      Accounts full ↑(volumePaths .removeFileExclusion volume) execution.journal
        (applyRemovedFileExclusions ops execution volume).journal := by
  simp only [applyRemovedFileExclusions]
  by_cases hempty : volume.2.isEmpty = true
  · rw [if_pos hempty, volumePaths, List.isEmpty_iff.1 hempty]
    exact ⟨hbetween, refl hbetween.idle⟩
  · rw [if_neg hempty]
    cases findNextVolume execution.volumes volume.1 with
    | none =>
        have hstart : BetweenVolumes { execution with
            journal := execution.journal.requireReconciliation } :=
          ⟨hbetween.idle, hbetween.recorded⟩
        have hpaths := foldl_paths volume
          (fun _ path hbetween => @of_alreadyAbsent full P volume.1 path _ hbetween) hstart
        exact ⟨hpaths.1, hpaths.2.congr_left rfl rfl⟩
    | some row =>
        exact foldl_paths volume
          (fun _ _ hbetween => of_applyVolumeOperation ops (by decide) _ _ _ hbetween) hbetween

theorem of_applyVolumes (hidle : execution.journal.operations = [])
    {pending : PendingChanges} :
    Accounts (NoEmptyPaths pending) ↑(volumeOperations pending) execution.journal
      (applyVolumes ops pending execution).journal := by
  rw [applyVolumes]
  by_cases hset : (pending.volumeProtect.isEmpty && pending.volumeBindByVolumeName.isEmpty &&
      pending.addFileExclusions.isEmpty && pending.removeFileExclusions.isEmpty) = true
  · rw [if_pos hset]
    simp only [Bool.and_eq_true, List.isEmpty_iff] at hset
    obtain ⟨⟨⟨hprotect, hbind⟩, hadd⟩, hremove⟩ := hset
    rw [volumeOperations, hprotect, hbind, hadd, hremove]
    exact refl hidle
  · rw [if_neg hset]
    refine of_tryRead _ hidle (fun hpaths hzero => volumeOperations_ne_nil hpaths hset
      ((Multiset.coe_eq_zero _).1 hzero)) fun volumes provider => ?_
    have hstart : BetweenVolumes
        { journal := execution.journal, provider := provider, volumes := volumes } :=
      ⟨hidle, fun h => absurd rfl h⟩
    have hview : ∀ execution : VolumeExecution P, BetweenVolumes execution →
      execution.journal.operations = [] := fun _ hkeeps => hkeeps.idle
    obtain ⟨hprotected, hfirst⟩ := foldl _ BetweenVolumes _ pending.volumeProtect
      (fun _ volume _ hbetween => of_applyVolumeProtection ops hbetween volume) hview _ hstart
    obtain ⟨hbound, hsecond⟩ := foldl _ BetweenVolumes _ pending.volumeBindByVolumeName
      (fun _ volume _ hbetween => of_applyVolumeBinding ops hbetween volume) hview _ hprotected
    obtain ⟨hadded, hthird⟩ := foldl _ BetweenVolumes _ pending.addFileExclusions
      (fun _ volume _ hbetween => of_applyAddedFileExclusions ops hbetween volume) hview _ hbound
    obtain ⟨_, hfourth⟩ := foldl _ BetweenVolumes _ pending.removeFileExclusions
      (fun _ volume _ hbetween => of_applyRemovedFileExclusions ops hbetween volume) hview _ hadded
    have hall : Accounts (NoEmptyPaths pending) _ _ _ :=
      ((hfirst.trans hsecond).trans hthird).trans hfourth
    rw [sum_singletons, sum_singletons, sum_volumePaths, sum_volumePaths, Multiset.coe_add,
      Multiset.coe_add, Multiset.coe_add] at hall
    exact hall

/-! ### Registry -/

theorem of_reportPersistence {kind : ConfigurationOperationKind}
    (hkind : kind ≠ .volumeRegistration) (name : String) (value : Bool)
    (execution : Execution P) :
    Accounts full {⟨kind, []⟩} execution.journal
      (reportPersistence kind name (some value) execution).journal :=
  of_recordSuccess [⟨kind, []⟩] (execution.journal.begin kind []).confirmed execution.journal rfl
    rfl (List.cons_ne_nil _ _) (List.forall_mem_singleton.2 hkind) rfl _

/-- A write of several operations at once: its failure is recorded for all of
them, and after it was confirmed they are reported one by one. -/
theorem of_executeTogether {operations : List ConfigurationOperation} (hne : operations ≠ [])
    (hkinds : ∀ operation ∈ operations, operation.kind ≠ .volumeRegistration) (context : Message)
    (action : P → Except Thrown Unit × P) {report : Execution P → Execution P}
    (hreport : ∀ execution, Accounts full ↑operations execution.journal (report execution).journal)
    {begun : Execution P} {before : ApplyJournal} (hoperations : begun.journal.operations = operations)
    (hsteps : begun.journal.steps = before.steps)
    (hfailed : begun.journal.failedOperations = before.failedOperations) :
    Accounts full ↑operations before
      (match Execution.execute context action begun with
      | (.failed, execution) => execution
      | (.confirmed, execution) => report execution).journal := by
  rw [Execution.execute]
  rcases action begun.provider with ⟨(error | _) | _, provider⟩
  · exact of_recordError operations { begun.journal with stepEffect := .none } before hoperations
      hsteps hne hkinds context error
  · exact of_recordFailure operations { begun.journal with stepEffect := .none } before
      hoperations hsteps hne hkinds _ (by decide)
  · exact (hreport _).congr_left hsteps hfailed

/-- One write stands for the switches that are asked for; each of them reports for itself. -/
theorem of_applyPersistence (hidle : execution.journal.operations = [])
    (pending : PendingChanges) (next : RegistryFilterRow) :
    Accounts full ↑(whenSet pending.setPersistDomainSecretKey.isSome .domainPersistence ++
        whenSet pending.setPersistTSCAL.isSome .licensePersistence)
      execution.journal (applyPersistence ops pending next execution).journal := by
  rw [applyPersistence]
  cases pending.setPersistDomainSecretKey with
  | none =>
      cases pending.setPersistTSCAL with
      | none => exact refl hidle
      | some license =>
          exact of_executeTogether (List.cons_ne_nil _ _) (by decide) _ _
            (of_reportPersistence (by decide) _ license) rfl rfl rfl
  | some domain =>
      cases pending.setPersistTSCAL with
      | none =>
          exact of_executeTogether (List.cons_ne_nil _ _) (by decide) _ _
            (of_reportPersistence (by decide) _ domain) rfl rfl rfl
      | some license =>
          exact of_executeTogether (List.cons_ne_nil _ _) (by decide) _ _
            (fun execution => (of_reportPersistence (by decide) _ domain execution).trans
              (of_reportPersistence (by decide) _ license _)) rfl rfl rfl

theorem of_addedRegistryExclusion (next : RegistryFilterRow) (key : Text)
    (execution : Execution P) :
    (applyAddedRegistryExclusion ops next execution key).journal.operations = [] ∧
      Accounts full {⟨.addRegistryExclusion, key⟩} execution.journal
        (applyAddedRegistryExclusion ops next execution key).journal :=
  (of_applyOperation (by decide) key _ _ true execution).idle_and

theorem of_removedRegistryExclusion (next : RegistryFilterRow) (key : Text)
    (execution : Execution P) :
    (applyRemovedRegistryExclusion ops next execution key).journal.operations = [] ∧
      Accounts full {⟨.removeRegistryExclusion, key⟩} execution.journal
        (applyRemovedRegistryExclusion ops next execution key).journal :=
  (of_applyOperation (by decide) key _ _ true execution).idle_and

theorem of_applyRegistry (execution : Execution P) (pending : PendingChanges) :
    Accounts full ↑(registryOperations pending) execution.journal
      (applyRegistry ops pending execution).journal := by
  rw [applyRegistry]
  have hended : Accounts full 0 execution.journal execution.journal.endOperation :=
    of_unchanged rfl rfl rfl
  by_cases hset : (pending.addRegistryExclusions.isEmpty &&
      pending.removeRegistryExclusions.isEmpty && pending.setPersistDomainSecretKey.isNone &&
      pending.setPersistTSCAL.isNone) = true
  · rw [if_pos hset, registryOperations_eq_nil.1 hset]
    exact hended
  · rw [if_neg hset]
    refine (of_tryRead _ hended.idle (fun _ hzero => hset (registryOperations_eq_nil.2
      ((Multiset.coe_eq_zero _).1 hzero))) fun next provider => ?_).congr_left rfl rfl
    obtain ⟨hafterAdding, hfirst⟩ := foldl (fun execution : Execution P => execution.journal)
      (fun execution => execution.journal.operations = []) _ pending.addRegistryExclusions
      (fun execution key _ _ => of_addedRegistryExclusion ops next key execution)
      (fun _ hkeeps => hkeeps) ⟨execution.journal.endOperation, provider⟩ rfl
    obtain ⟨hafterRemoving, hsecond⟩ := foldl (fun execution : Execution P => execution.journal)
      (fun execution => execution.journal.operations = []) _ pending.removeRegistryExclusions
      (fun execution key _ _ => of_removedRegistryExclusion ops next key execution)
      (fun _ hkeeps => hkeeps) _ hafterAdding
    have hall : Accounts full _ _ _ :=
      (hfirst.trans hsecond).trans (of_applyPersistence ops hafterRemoving pending next)
    rw [sum_singletons, sum_singletons, Multiset.coe_add, Multiset.coe_add] at hall
    exact hall

/-! ### The whole plan -/

theorem of_applyChanges (hidle : execution.journal.operations = []) (plan : ConfigurationPlan) :
    Accounts (NoEmptyPaths plan.changes) (changeOperations plan.changes) execution.journal
      (applyChanges ops plan execution).journal := by
  have hfilter : Accounts (NoEmptyPaths plan.changes) _ _ _ :=
    of_applyFilter ops hidle plan.changes
  have hthresholds : Accounts (NoEmptyPaths plan.changes) _ _ _ :=
    of_applyThresholds ops hfilter.idle plan.changes
  have hoverlay : Accounts (NoEmptyPaths plan.changes) _ _ _ :=
    of_applyOverlayConfig ops hthresholds.idle plan.changes plan.snapshot
  have hvolumes : Accounts (NoEmptyPaths plan.changes) _ _ _ :=
    of_applyVolumes ops hoverlay.idle
  exact (((hfilter.trans hthresholds).trans hoverlay).trans hvolumes).trans
    (of_applyRegistry ops _ plan.changes)

end Blocks

/-- The converse may ask for more. -/
theorem of_imp {more : Prop} {before after : ApplyJournal} (hmore : more → full)
    (haccounts : Accounts full planned before after) : Accounts more planned before after := by
  obtain ⟨hidle, added, hsteps, hrecorded, hclean, hsound⟩ := haccounts
  exact ⟨hidle, added, hsteps, hrecorded, hclean, fun h => hsound (hmore h)⟩

end Accounts

/-- An action that is not confirmed was recorded as a failure. -/
theorem Execution.applyOperation_failed {P : Type*} {kind : ConfigurationOperationKind}
    {target : Text} {messages : ApplyMessages} {action : P → Except Thrown Unit × P}
    {execution : Execution P}
    (hfailed : (execution.applyOperation kind target messages action true).1 = .failed) :
    (execution.applyOperation kind target messages action true).2.journal.failedOperations ≠ 0 := by
  revert hfailed
  rw [Execution.applyOperation, Execution.apply, if_pos rfl, Execution.execute]
  rcases action execution.provider with ⟨(error | _) | _, provider⟩
  · exact fun _ => Nat.succ_ne_zero _
  · exact fun _ => Nat.succ_ne_zero _
  · exact fun hfailed => absurd hfailed (by simp)

section Result

variable {P S : Type*} (ops : ProviderOperations P) (plan : ConfigurationPlan)
  (writeStaging : Option (S → FileStagingWriteResult × S)) (provider : P) (state : S)

/-- The result reports a journal that accounts for the plan. -/
theorem accounts_executePlan :
    ∃ journal : ApplyJournal,
      Accounts (plan.operations ≠ [] ∧ NoEmptyPaths plan.changes) ↑plan.operations {} journal ∧
      (executePlan ops plan writeStaging provider state).1.steps = journal.stepsOf plan ∧
      (executePlan ops plan writeStaging provider state).1.failedOperations =
        journal.failedOperations := by
  have hchanges : ∀ {execution : Execution P}, execution.journal.operations = [] →
      Accounts (plan.operations ≠ [] ∧ NoEmptyPaths plan.changes) (changeOperations plan.changes)
        execution.journal (applyChanges ops plan execution).journal :=
    fun hidle => (Accounts.of_applyChanges ops hidle plan).of_imp And.right
  have hreported : ∀ {journal : ApplyJournal} {planned : Multiset ConfigurationOperation},
      Accounts (plan.operations ≠ [] ∧ NoEmptyPaths plan.changes) planned {} journal →
      ∀ (connected : Bool) (staging : Option FileStagingWriteResult), ∃ found : ApplyJournal,
        Accounts (plan.operations ≠ [] ∧ NoEmptyPaths plan.changes) planned {} found ∧
        (journal.result plan connected staging).steps = found.stepsOf plan ∧
        (journal.result plan connected staging).failedOperations = found.failedOperations :=
    fun haccounts _ _ => ⟨_, haccounts, rfl, rfl⟩
  rw [executePlan]
  rcases ops.request .ensureConnected provider with ⟨error | connected, provider⟩
  · exact hreported (Accounts.of_recordError_idle rfl
      (fun hfull hzero => hfull.1 ((Multiset.coe_eq_zero _).1 hzero)) _ error) false none
  · rw [coe_operations]
    dsimp only
    cases hstaging : plan.staging with
    | none =>
        have hrun := @hchanges ⟨{}, provider⟩ rfl
        have hnothing : ((whenSet (none : Option FileStagingChanges).isSome .staging :
            List ConfigurationOperation) : Multiset ConfigurationOperation) +
            changeOperations plan.changes = changeOperations plan.changes := zero_add _
        rw [hnothing]
        exact hreported hrun true none
    | some edits =>
        dsimp only
        have hkind : ConfigurationOperationKind.staging ≠ .volumeRegistration := by decide
        have hsaved : Accounts (plan.operations ≠ [] ∧ NoEmptyPaths plan.changes)
            {⟨.staging, []⟩} {} (saveStaging writeStaging {} state).2.journal :=
          Accounts.of_applyOperation hkind [] _ _ true ⟨{}, (state, none)⟩
        have hfailed : (saveStaging writeStaging {} state).1 = .failed →
            (saveStaging writeStaging {} state).2.journal.failedOperations ≠ 0 := by
          rw [saveStaging]
          exact Execution.applyOperation_failed
        revert hsaved hfailed
        rcases saveStaging writeStaging {} state with ⟨_ | _, saved⟩ <;> dsimp only
        · intro hsaved _
          have hrun := @hchanges ⟨saved.journal, provider⟩ hsaved.idle
          exact hreported (hsaved.trans hrun) true _
        · intro hsaved hfailed
          have hrest : Accounts (plan.operations ≠ [] ∧ NoEmptyPaths plan.changes)
              (changeOperations plan.changes) saved.journal saved.journal :=
            Accounts.of_failed hsaved.idle (hfailed rfl)
          exact hreported (hsaved.trans hrest) true saved.provider.2

end Result

/-! ## The reported steps -/

section Reported

def skippedStep (operation : ConfigurationOperation) : ConfigurationStepResult :=
  ⟨ApplyJournal.skippedMessage, .skipped, .none, some operation⟩

/-- Whether a step stands for the operation. -/
def hasStep (steps : List ConfigurationStepResult) (operation : ConfigurationOperation) : Bool :=
  steps.any fun step => step.operation == some operation

theorem hasStep_iff {steps : List ConfigurationStepResult} {operation : ConfigurationOperation} :
    hasStep steps operation = true ↔ ∃ step ∈ steps, step.operation = some operation := by
  simp [hasStep]

/-- The operations without a step are added as skipped, each of them once. -/
theorem foldl_skipped {operations : List ConfigurationOperation} (hnodup : operations.Nodup)
    (steps : List ConfigurationStepResult) :
    operations.foldl
        (fun result operation =>
          if hasStep result operation then result else result ++ [skippedStep operation]) steps =
      steps ++ (operations.filter fun operation => !hasStep steps operation).map skippedStep := by
  induction operations generalizing steps with
  | nil => exact (List.append_nil steps).symm
  | cons operation rest ih =>
      obtain ⟨hfresh, hrest⟩ := List.nodup_cons.1 hnodup
      rw [List.foldl_cons, ih hrest]
      cases hfound : hasStep steps operation with
      | true => simp [hfound]
      | false =>
          have hlater : ∀ other ∈ rest,
              (!hasStep (steps ++ [skippedStep operation]) other) = !hasStep steps other := by
            intro other hother
            have hdistinct : operation ≠ other := fun heq => hfresh (heq ▸ hother)
            simp [hasStep, skippedStep, hdistinct]
          rw [if_neg Bool.false_ne_true, List.filter_congr hlater]
          simp [hfound]

theorem stepsOf_eq (journal : ApplyJournal) {plan : ConfigurationPlan}
    (hnodup : plan.operations.Nodup) :
    journal.stepsOf plan = journal.steps ++
      (plan.operations.filter fun operation => !hasStep journal.steps operation).map skippedStep :=
  foldl_skipped hnodup journal.steps

variable {steps : List ConfigurationStepResult} {operations : List ConfigurationOperation}

/-- The skipped steps that stand for an operation. -/
theorem countP_skipped (hnodup : operations.Nodup) {operation : ConfigurationOperation}
    (hmem : operation ∈ operations) :
    ((operations.filter fun operation => !hasStep steps operation).map skippedStep).countP
      (fun step => step.operation = some operation) =
        if hasStep steps operation then 0 else 1 := by
  have hcount : ((operations.filter fun operation => !hasStep steps operation).map
      skippedStep).countP (fun step => step.operation = some operation) =
        (operations.filter fun operation => !hasStep steps operation).count operation := by
    rw [List.countP_map, List.count_eq_countP]
    refine List.countP_congr fun other _ => ?_
    simp [skippedStep]
  rw [hcount]
  cases hfound : hasStep steps operation with
  | true =>
      rw [if_pos rfl, List.count_eq_zero]
      intro hkept
      rw [List.mem_filter, hfound] at hkept
      exact absurd hkept.2 (by decide)
  | false =>
      have hkept : operation ∈ operations.filter fun operation => !hasStep steps operation :=
        List.mem_filter.2 ⟨hmem, by rw [hfound]; rfl⟩
      rw [if_neg Bool.false_ne_true]
      exact List.count_eq_one_of_mem (hnodup.filter _) hkept

/-- A planned operation is executed at most once, so that a step exactly when
it was recorded. -/
theorem countP_recorded (hnodup : operations.Nodup)
    (hrecorded : recordedOperations steps ≤ ↑operations) {operation : ConfigurationOperation}
    (hkind : operation.kind ≠ .volumeRegistration) :
    steps.countP (fun step => step.operation = some operation) =
      if hasStep steps operation then 1 else 0 := by
  have hle : steps.countP (fun step => step.operation = some operation) ≤ 1 := by
    rw [← count_recordedOperations hkind]
    exact (Multiset.count_le_of_le operation hrecorded).trans
      (Multiset.nodup_iff_count_le_one.1 (Multiset.coe_nodup.2 hnodup) operation)
  have hpos : 0 < steps.countP (fun step => step.operation = some operation) ↔
      hasStep steps operation = true := by
    rw [List.countP_pos_iff, hasStep_iff]
    simp
  split_ifs with hfound
  · exact le_antisymm hle (hpos.2 hfound)
  · exact Nat.eq_zero_of_not_pos fun h => hfound (hpos.1 h)

end Reported

theorem kind_of_mem_whenSet {set : Bool} {kind : ConfigurationOperationKind}
    {operation : ConfigurationOperation} (hmem : operation ∈ whenSet set kind) :
    operation.kind = kind := by
  rw [whenSet] at hmem
  split_ifs at hmem
  · rw [List.mem_singleton.1 hmem]
  · exact absurd hmem List.not_mem_nil

theorem kind_of_mem_perPath {kind : ConfigurationOperationKind}
    {exclusions : List (Text × List Text)} {operation : ConfigurationOperation}
    (hmem : operation ∈ perPath kind exclusions) : operation.kind = kind := by
  obtain ⟨volume, _, hvolume⟩ := List.mem_flatMap.1 hmem
  obtain ⟨path, _, rfl⟩ := List.mem_map.1 hvolume
  rfl

/-- The registration of a volume is not planned. -/
theorem kind_of_mem_operations {plan : ConfigurationPlan} {operation : ConfigurationOperation}
    (hmem : operation ∈ plan.operations) : operation.kind ≠ .volumeRegistration := by
  have hplanned : operation ∈ (↑plan.operations : Multiset ConfigurationOperation) := hmem
  rw [coe_operations] at hplanned
  simp only [changeOperations, volumeOperations, registryOperations, Multiset.mem_add,
    Multiset.mem_coe, List.mem_append, List.mem_map, or_assoc] at hplanned
  have hset : ∀ {set kind}, operation ∈ whenSet set kind → kind ≠ .volumeRegistration →
      operation.kind ≠ .volumeRegistration :=
    fun hmem hkind => kind_of_mem_whenSet hmem ▸ hkind
  rcases hplanned with h | h | h | h | h | h | h | h | h | h | h | h | h | h
  all_goals first
    | exact hset h (by decide)
    | exact kind_of_mem_perPath h ▸ (by decide)
    | (obtain ⟨_, _, rfl⟩ := h; exact (by simp))

section Complete

variable {P S : Type*} (ops : ProviderOperations P) (plan : ConfigurationPlan)
  (writeStaging : Option (S → FileStagingWriteResult × S)) (provider : P) (state : S)

/-- The reported steps have each planned operation once.  There is no failure
exactly when all of these steps succeeded, provided that there is something to
do and no volume is listed without a path. -/
theorem executePlan_journal_complete (hnodup : plan.operations.Nodup) :
    let result := (executePlan ops plan writeStaging provider state).1
    (∀ operation ∈ plan.operations,
      result.steps.countP (fun step => step.operation = some operation) = 1) ∧
    (∀ step ∈ result.steps, ∀ operation, step.operation = some operation →
      operation ∈ plan.operations ∨ operation.kind = .volumeRegistration) ∧
    (plan.operations ≠ [] → NoEmptyPaths plan.changes →
      (result.failedOperations = 0 ↔ ∀ operation ∈ plan.operations,
        ∃ step ∈ result.steps, step.operation = some operation ∧ step.outcome = .succeeded)) := by
  obtain ⟨journal, haccounts, hsteps, hfailed⟩ :=
    accounts_executePlan ops plan writeStaging provider state
  obtain ⟨_, added, hadded, hrecorded, hclean, hsound⟩ := haccounts
  obtain rfl : journal.steps = added := hadded
  dsimp only
  rw [hsteps, hfailed, stepsOf_eq journal hnodup]
  refine ⟨fun operation hmem => ?_, fun step hstep operation hoperation => ?_, fun hne hpaths => ?_⟩
  · rw [List.countP_append, countP_skipped hnodup hmem,
      countP_recorded hnodup hrecorded (kind_of_mem_operations hmem)]
    split_ifs <;> rfl
  · rw [or_iff_not_imp_right]
    intro hkind
    rcases List.mem_append.1 hstep with hrun | hskipped
    · have hmem : operation ∈ recordedOperations journal.steps :=
        mem_recordedOperations.2 ⟨hkind, step, hrun, hoperation⟩
      exact Multiset.mem_coe.1 (Multiset.mem_of_le hrecorded hmem)
    · obtain ⟨planned, hplanned, rfl⟩ := List.mem_map.1 hskipped
      obtain rfl := Option.some.inj hoperation
      exact List.mem_of_mem_filter hplanned
  · have hcompletedLe : completedOperations journal.steps ≤ ↑plan.operations :=
      (completedOperations_le _).trans hrecorded
    constructor
    · intro hzero operation hmem
      have hall : completedOperations journal.steps = ↑plan.operations :=
        Multiset.eq_of_le_of_card_le hcompletedLe (hclean hzero).2.ge
      have hcompleted : operation ∈ completedOperations journal.steps := by
        rw [hall]
        exact hmem
      obtain ⟨_, step, hstep, hsucceeded⟩ := mem_completedOperations.1 hcompleted
      exact ⟨step, List.mem_append_left _ hstep, hsucceeded⟩
    · intro hall
      have hsubset : (↑plan.operations : Multiset ConfigurationOperation) ≤
          completedOperations journal.steps := by
        refine (Multiset.le_iff_subset (Multiset.coe_nodup.2 hnodup)).2 fun operation hmem => ?_
        obtain ⟨step, hstep, hoperation, houtcome⟩ := hall operation hmem
        refine mem_completedOperations.2 ⟨kind_of_mem_operations hmem, step, ?_, hoperation, houtcome⟩
        rcases List.mem_append.1 hstep with hrun | hskipped
        · exact hrun
        · obtain ⟨_, _, rfl⟩ := List.mem_map.1 hskipped
          exact absurd houtcome (by simp [skippedStep])
      have hcard := (Multiset.card_le_card hcompletedLe).antisymm (Multiset.card_le_card hsubset)
      exact hsound ⟨hne, hpaths⟩ rfl hcard

end Complete

namespace FilterAndVolumes

/-- A provider that answers every call, but refuses to protect a volume. -/
def provider : ProviderOperations Unit where
  request
    | .ensureConnected, state => (.ok (), state)
    | .readFilter, state => (.ok { path := [] }, state)
    | .readOverlay, state =>
        (.ok { path := [], criticalOverlayThreshold := 0, warningOverlayThreshold := 0 }, state)
    | .readOverlayConfig _, state => (.ok { path := [], type := .ram, maximumSize := 0 }, state)
    | .readVolumes, state => (.ok [], state)
    | .ensureNextSessionEntry drive, state =>
        (.ok ⟨{ path := [], currentSession := false, driveLetter := drive }, .created⟩, state)
    | .readRegistryFilter _, state =>
        (.ok { path := [], persistDomainSecretKey := false, persistTSCAL := false }, state)
  write
    | .protectVolume _, state => (.error (.standard ⟨"refused".toList, some .none⟩), state)
    | _, state => (.ok (), state)

def plan : ConfigurationPlan where
  changes :=
    { setFilterEnabled := some true
      volumeProtect := [("C:".toList, true)]
      addFileExclusions := [("C:".toList, ["\\a".toList, "\\b".toList])] }
  snapshot := {}
  staging := none
  stagingCompletionAlternatives := []

end FilterAndVolumes

open FilterAndVolumes in
theorem executePlan_journal_complete_refused :
    let result := (executePlan provider plan (none : Option (Unit → _ × Unit)) () ()).1
    result.steps.length = 5 ∧ result.failedOperations = 1 ∧
      ∀ operation ∈ plan.operations,
        result.steps.countP (fun step => step.operation = some operation) = 1 :=
  ⟨by decide +kernel, by decide +kernel,
    (executePlan_journal_complete provider plan none () () (by decide +kernel)).1⟩

end UwfManager
