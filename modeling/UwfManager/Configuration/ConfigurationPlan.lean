import UwfManager.Core.UwfModel
import UwfManager.Staging.FileStagingDraft

/-!
# The plan of an apply

A saved staging list is read after a restart only if the registry key it is
stored under is an exclusion of the next session.  The planner adds or drops
that exclusion together with the staging write, and notes which operations of
the plan the saved list depends on.
-/

namespace UwfManager

inductive ConfigurationOperationKind where
  | staging
  | filter
  | overlayType
  | overlaySize
  | warningThreshold
  | criticalThreshold
  | volumeRegistration
  | volumeProtection
  | volumeBinding
  | addFileExclusion
  | removeFileExclusion
  | addRegistryExclusion
  | removeRegistryExclusion
  | domainPersistence
  | licensePersistence
  deriving DecidableEq, Repr

structure ConfigurationOperation where
  kind : ConfigurationOperationKind
  target : Text
  deriving DecidableEq

structure ConfigurationPlan where
  changes : PendingChanges
  snapshot : UwfSnapshot
  staging : Option FileStagingChanges
  /-- A saved list needs one of these operations to complete, unless there are none. -/
  stagingCompletionAlternatives : List ConfigurationOperation
  deriving DecidableEq

def ConfigurationPlan.operations (plan : ConfigurationPlan) : List ConfigurationOperation :=
  let changes := plan.changes
  let whenSet (set : Bool) (kind : ConfigurationOperationKind) : List ConfigurationOperation :=
    if set then [⟨kind, []⟩] else []
  let perPath (kind : ConfigurationOperationKind) (exclusions : List (Text × List Text)) :
      List ConfigurationOperation :=
    exclusions.flatMap fun volume => volume.2.map fun path => ⟨kind, volume.1 ++ path⟩
  whenSet plan.staging.isSome .staging ++
    whenSet changes.setFilterEnabled.isSome .filter ++
    whenSet changes.setOverlay.type.isSome .overlayType ++
    whenSet changes.setOverlay.maximumSizeMb.isSome .overlaySize ++
    whenSet changes.setOverlay.warningThresholdMb.isSome .warningThreshold ++
    whenSet changes.setOverlay.criticalThresholdMb.isSome .criticalThreshold ++
    changes.volumeProtect.map (fun volume => ⟨.volumeProtection, volume.1⟩) ++
    changes.volumeBindByVolumeName.map (fun volume => ⟨.volumeBinding, volume.1⟩) ++
    perPath .addFileExclusion changes.addFileExclusions ++
    perPath .removeFileExclusion changes.removeFileExclusions ++
    changes.addRegistryExclusions.map (⟨.addRegistryExclusion, ·⟩) ++
    changes.removeRegistryExclusions.map (⟨.removeRegistryExclusion, ·⟩) ++
    whenSet changes.setPersistDomainSecretKey.isSome .domainPersistence ++
    whenSet changes.setPersistTSCAL.isSome .licensePersistence

variable (qt : Qt)

def sameKey (first second : Text) : Bool :=
  Paths.contains qt first second && Paths.contains qt second first

def hasRoot (keys : List Text) : Bool := keys.any (sameKey qt · fileStagingRegistryRoot)

/-- The exclusions of the next session that no pending removal concerns. -/
def retainedExclusions (snapshot : UwfSnapshot) (pending : PendingChanges) : List Text :=
  snapshot.next.registryExclusions.filter fun key =>
    !pending.removeRegistryExclusions.any (sameKey qt key)

/-- Drops the pending removals of the staging root. -/
def keepRoot (pending : PendingChanges) : PendingChanges :=
  { pending with
    removeRegistryExclusions :=
      pending.removeRegistryExclusions.filter fun key => !sameKey qt key fileStagingRegistryRoot }

def planConfiguration (pending : PendingChanges) (snapshot : UwfSnapshot)
    (staging : Option FileStagingChanges) : ConfigurationPlan :=
  match staging with
  | none => ⟨pending, snapshot, none, []⟩
  | some edits =>
      let root := fileStagingRegistryRoot
      if edits.after.isEmpty then
        let pending :=
          if hasRoot qt snapshot.next.registryExclusions &&
              !hasRoot qt pending.addRegistryExclusions &&
              !hasRoot qt pending.removeRegistryExclusions then
            { pending with
              removeRegistryExclusions := pending.removeRegistryExclusions ++ [root] }
          else pending
        let stagingCompletion :=
          if hasRoot qt snapshot.next.registryExclusions &&
              hasRoot qt pending.removeRegistryExclusions then
            (pending.removeRegistryExclusions.filter (sameKey qt · root)).map
              fun key => ⟨.removeRegistryExclusion, key⟩
          else []
        ⟨pending, snapshot, some edits, stagingCompletion⟩
      else
        let pending := keepRoot qt pending
        let retained := retainedExclusions qt snapshot pending
        let target := retained ++ pending.addRegistryExclusions
        let pending :=
          if (Paths.findCoveringExclusion qt target root).isEmpty then
            { pending with addRegistryExclusions := pending.addRegistryExclusions ++ [root] }
          else pending
        let stagingCompletion :=
          if (Paths.findCoveringExclusion qt retained root).isEmpty then
            (pending.addRegistryExclusions.filter (Paths.contains qt · root)).map
              fun key => ⟨.addRegistryExclusion, key⟩
          else []
        ⟨pending, snapshot, some edits, stagingCompletion⟩

theorem RegKey.plain_of_longForm {key : Text} (hlong : RegKey.LongForm key) :
    Qt.hasLongPathPrefix key = false :=
  Qt.hasLongPathPrefix_of_head (RegKey.head?_of_longForm hlong) (by decide) (by decide)

theorem strip_root :
    Paths.stripTrailingSeparators fileStagingRegistryRoot = fileStagingRegistryRoot := by
  decide +kernel

theorem contains_root {qt : Qt} (hqt : qt.ConvertsSeparators) :
    Paths.contains qt fileStagingRegistryRoot fileStagingRegistryRoot = true := by
  have hplain : Qt.hasLongPathPrefix fileStagingRegistryRoot = false := by decide +kernel
  have hmap : fileStagingRegistryRoot.map Paths.toBackslash = fileStagingRegistryRoot := by
    decide +kernel
  have hempty : fileStagingRegistryRoot.isEmpty = false := by decide +kernel
  have hstrip : fileStagingRegistryRoot.rdropWhile Paths.isSeparator = fileStagingRegistryRoot :=
    strip_root
  rw [Paths.contains, Paths.native_eq_map hqt (hqt.fromNative _ hplain), hmap]
  simp only [hstrip, hempty, Qt.sameText_self, if_true]
  rfl

theorem sameKey_comm (first second : Text) : sameKey qt first second = sameKey qt second first :=
  Bool.and_comm _ _

/-- Beside the exclusion of the staging root, the plan has what was pending. -/
theorem planConfiguration_changes (pending : PendingChanges) (snapshot : UwfSnapshot)
    (staging : Option FileStagingChanges) :
    (planConfiguration qt pending snapshot staging).snapshot = snapshot ∧
      (planConfiguration qt pending snapshot staging).staging = staging ∧
      ∃ added removed,
        (planConfiguration qt pending snapshot staging).changes =
          { pending with
            addRegistryExclusions := added
            removeRegistryExclusions := removed } ∧
        (added = pending.addRegistryExclusions ∨
          added = pending.addRegistryExclusions ++ [fileStagingRegistryRoot]) ∧
        (removed = pending.removeRegistryExclusions ∨
          removed = pending.removeRegistryExclusions ++ [fileStagingRegistryRoot] ∨
          removed = pending.removeRegistryExclusions.filter
            fun key => !sameKey qt key fileStagingRegistryRoot) := by
  cases staging with
  | none => exact ⟨rfl, rfl, _, _, rfl, Or.inl rfl, Or.inl rfl⟩
  | some edits =>
      simp only [planConfiguration]
      by_cases hempty : edits.after.isEmpty = true
      · rw [if_pos hempty]
        refine ⟨rfl, rfl, ?_⟩
        simp only
        split_ifs
        · exact ⟨_, _, rfl, Or.inl rfl, Or.inr (Or.inl rfl)⟩
        · exact ⟨_, _, rfl, Or.inl rfl, Or.inl rfl⟩
      · rw [if_neg hempty]
        refine ⟨rfl, rfl, ?_⟩
        simp only
        split_ifs
        · exact ⟨_, _, rfl, Or.inr rfl, Or.inr (Or.inr rfl)⟩
        · exact ⟨_, _, rfl, Or.inl rfl, Or.inr (Or.inr rfl)⟩

/-- What is retained depends on the pending removals alone. -/
theorem retainedExclusions_congr (snapshot : UwfSnapshot) {first second : PendingChanges}
    (hremoved : first.removeRegistryExclusions = second.removeRegistryExclusions) :
    retainedExclusions qt snapshot first = retainedExclusions qt snapshot second := by
  rw [retainedExclusions, retainedExclusions, hremoved]

/-! ## Plans that save a list -/

section Saves

variable {pending : PendingChanges} {snapshot : UwfSnapshot} {edits : FileStagingChanges}

/-- The plan of a list that is not empty does not remove the root's exclusion. -/
theorem removed_of_saves (hafter : edits.after ≠ []) :
    (planConfiguration qt pending snapshot (some edits)).changes.removeRegistryExclusions =
      pending.removeRegistryExclusions.filter
        fun key => !sameKey qt key fileStagingRegistryRoot := by
  simp only [planConfiguration, List.isEmpty_iff, hafter, if_false]
  split_ifs <;> rfl

theorem added_of_saves (hafter : edits.after ≠ []) {key : Text}
    (hkey : key ∈
      (planConfiguration qt pending snapshot (some edits)).changes.addRegistryExclusions) :
    key ∈ pending.addRegistryExclusions ∨ key = fileStagingRegistryRoot := by
  simp only [planConfiguration, List.isEmpty_iff, hafter, if_false] at hkey
  split_ifs at hkey
  · simpa [keepRoot] using hkey
  · exact Or.inl hkey

/-- Keys that are added and removed by one plan stay apart when they were apart before. -/
theorem apart_of_saves (hafter : edits.after ≠ [])
    (hapart : ∀ added ∈ pending.addRegistryExclusions,
      ∀ removed ∈ pending.removeRegistryExclusions, sameKey qt added removed = false)
    {added removed : Text}
    (hadded : added ∈
      (planConfiguration qt pending snapshot (some edits)).changes.addRegistryExclusions)
    (hremoved : removed ∈
      (planConfiguration qt pending snapshot (some edits)).changes.removeRegistryExclusions) :
    sameKey qt added removed = false := by
  rw [removed_of_saves qt hafter, List.mem_filter, Bool.not_eq_true'] at hremoved
  rcases added_of_saves qt hafter hadded with hpending | rfl
  · exact hapart added hpending removed hremoved.1
  · rw [sameKey_comm]
    exact hremoved.2

/-- Without alternatives, an exclusion that the plan keeps covers the root. -/
theorem retained_of_no_alternatives (hqt : qt.ConvertsSeparators) (hafter : edits.after ≠ [])
    (hlong : ∀ key ∈ pending.addRegistryExclusions, RegKey.LongForm key)
    (hnone : (planConfiguration qt pending snapshot
      (some edits)).stagingCompletionAlternatives = []) :
    (Paths.findCoveringExclusion qt
      (retainedExclusions qt snapshot (planConfiguration qt pending snapshot (some edits)).changes)
      fileStagingRegistryRoot).isEmpty = false := by
  rw [show retainedExclusions qt snapshot
      (planConfiguration qt pending snapshot (some edits)).changes =
        retainedExclusions qt snapshot (keepRoot qt pending) from
    retainedExclusions_congr qt snapshot (removed_of_saves qt hafter)]
  simp only [planConfiguration, List.isEmpty_iff, hafter, if_false] at hnone
  by_contra hretained
  rw [Bool.not_eq_false, List.isEmpty_iff] at hretained
  simp only [hretained, if_true, List.map_eq_nil_iff, List.filter_eq_nil_iff] at hnone
  split_ifs at hnone with htarget
  · exact hnone fileStagingRegistryRoot (by simp) (contains_root hqt)
  · obtain ⟨e, hmem, hcovers⟩ := Paths.exists_of_findCoveringExclusion qt
      (List.isEmpty_eq_false_iff.2 htarget)
    rcases List.mem_append.1 hmem with hkept | hadded
    · have hfound := Paths.findCoveringExclusion_of_contains hqt hkept hcovers
      exact absurd hretained (List.isEmpty_eq_false_iff.1 hfound)
    · rw [strip_root,
        Paths.contains_strip hqt (RegKey.plain_of_longForm (hlong e hadded))] at hcovers
      exact hnone e hadded hcovers

/-- Each alternative adds a key of the plan that covers the root. -/
theorem mem_alternatives (hafter : edits.after ≠ []) {operation : ConfigurationOperation}
    (hmem : operation ∈
      (planConfiguration qt pending snapshot (some edits)).stagingCompletionAlternatives) :
    operation.kind = .addRegistryExclusion ∧
      operation.target ∈
        (planConfiguration qt pending snapshot (some edits)).changes.addRegistryExclusions ∧
      Paths.contains qt operation.target fileStagingRegistryRoot = true := by
  simp only [planConfiguration, List.isEmpty_iff, hafter, if_false] at hmem ⊢
  by_cases hretained : (Paths.findCoveringExclusion qt (retainedExclusions qt snapshot
      (keepRoot qt pending)) fileStagingRegistryRoot) = []
  · simp only [hretained, if_true, List.mem_map, List.mem_filter] at hmem
    obtain ⟨key, hkey, rfl⟩ := hmem
    exact ⟨rfl, hkey⟩
  · simp [hretained] at hmem

end Saves

/-! ## Planning again -/

section Again

variable {qt}

theorem sameKey_root (hqt : qt.ConvertsSeparators) :
    sameKey qt fileStagingRegistryRoot fileStagingRegistryRoot = true := by
  rw [sameKey, contains_root hqt]
  rfl

theorem hasRoot_append_root (hqt : qt.ConvertsSeparators) (keys : List Text) :
    hasRoot qt (keys ++ [fileStagingRegistryRoot]) = true := by
  rw [hasRoot, List.any_append, List.any_cons, sameKey_root hqt]
  simp

theorem keepRoot_of_filtered {pending : PendingChanges} {keys : List Text}
    (hfiltered : pending.removeRegistryExclusions =
      keys.filter fun key => !sameKey qt key fileStagingRegistryRoot) :
    keepRoot qt pending = pending := by
  rw [keepRoot, hfiltered, List.filter_filter]
  simp only [Bool.and_self]
  rw [← hfiltered]

/-- An exclusion of the root covers the root. -/
theorem covers_append_root (hqt : qt.ConvertsSeparators) (keys : List Text) :
    (Paths.findCoveringExclusion qt (keys ++ [fileStagingRegistryRoot])
      fileStagingRegistryRoot).isEmpty = false := by
  apply Paths.findCoveringExclusion_of_contains hqt
    (List.mem_append_right keys List.mem_cons_self)
  rw [strip_root]
  exact contains_root hqt

/-- The planner leaves a removal of the root that it has added. -/
theorem planConfiguration_clears (hqt : qt.ConvertsSeparators) (pending : PendingChanges)
    (snapshot : UwfSnapshot) {edits : FileStagingChanges} (hafter : edits.after.isEmpty = true) :
    planConfiguration qt (planConfiguration qt pending snapshot (some edits)).changes snapshot
        (some edits) =
      planConfiguration qt pending snapshot (some edits) := by
  simp only [planConfiguration, if_pos hafter]
  by_cases hmissing : (hasRoot qt snapshot.next.registryExclusions &&
      !hasRoot qt pending.addRegistryExclusions &&
      !hasRoot qt pending.removeRegistryExclusions) = true
  · have hpresent : (hasRoot qt snapshot.next.registryExclusions &&
        !hasRoot qt pending.addRegistryExclusions &&
        !hasRoot qt (pending.removeRegistryExclusions ++ [fileStagingRegistryRoot])) = false := by
      rw [hasRoot_append_root hqt, Bool.not_true, Bool.and_false]
    rw [if_pos hmissing]
    simp only [hpresent, Bool.false_eq_true, if_false]
  · rw [if_neg hmissing, if_neg hmissing]

/-- The planner leaves an addition of the root that it has made, and the removals of
the root stay dropped. -/
theorem planConfiguration_saves (hqt : qt.ConvertsSeparators) (pending : PendingChanges)
    (snapshot : UwfSnapshot) {edits : FileStagingChanges} (hafter : ¬edits.after.isEmpty = true) :
    planConfiguration qt (planConfiguration qt pending snapshot (some edits)).changes snapshot
        (some edits) =
      planConfiguration qt pending snapshot (some edits) := by
  simp only [planConfiguration, if_neg hafter]
  by_cases huncovered : (Paths.findCoveringExclusion qt
      (retainedExclusions qt snapshot (keepRoot qt pending) ++
        (keepRoot qt pending).addRegistryExclusions) fileStagingRegistryRoot).isEmpty = true
  · rw [if_pos huncovered]
    have hkept : keepRoot qt { keepRoot qt pending with
        addRegistryExclusions :=
          (keepRoot qt pending).addRegistryExclusions ++ [fileStagingRegistryRoot] } =
        { keepRoot qt pending with
          addRegistryExclusions :=
            (keepRoot qt pending).addRegistryExclusions ++ [fileStagingRegistryRoot] } :=
      keepRoot_of_filtered rfl
    have hcovered : (Paths.findCoveringExclusion qt
        (retainedExclusions qt snapshot (keepRoot qt pending) ++
          ((keepRoot qt pending).addRegistryExclusions ++ [fileStagingRegistryRoot]))
        fileStagingRegistryRoot).isEmpty = false := by
      rw [← List.append_assoc]
      exact covers_append_root hqt _
    have hretained : retainedExclusions qt snapshot { keepRoot qt pending with
        addRegistryExclusions :=
          (keepRoot qt pending).addRegistryExclusions ++ [fileStagingRegistryRoot] } =
        retainedExclusions qt snapshot (keepRoot qt pending) :=
      retainedExclusions_congr qt snapshot rfl
    rw [hkept, hretained]
    simp only [hcovered, Bool.false_eq_true, if_false]
  · have hkept : keepRoot qt (keepRoot qt pending) = keepRoot qt pending :=
      keepRoot_of_filtered rfl
    rw [if_neg huncovered, hkept, if_neg huncovered]

/-- The plan whose execution `prepareApply` returns. -/
def prepareApply (qt : Qt) (stagingChanges : Option FileStagingChanges) (changes : PendingChanges)
    (snapshot : UwfSnapshot) : ConfigurationPlan :=
  planConfiguration qt changes snapshot stagingChanges

/-- Planning the changes of a plan gives the plan, so that the plan a user has reviewed is
the one that is executed. -/
theorem planConfiguration_idempotent (hqt : qt.ConvertsSeparators) (pending : PendingChanges)
    (snapshot : UwfSnapshot) (staging : Option FileStagingChanges) :
    let plan := planConfiguration qt pending snapshot staging
    let again := planConfiguration qt plan.changes snapshot staging
    again.changes = plan.changes ∧ again.operations = plan.operations ∧
      again.stagingCompletionAlternatives = plan.stagingCompletionAlternatives ∧
      prepareApply qt staging plan.changes plan.snapshot = plan := by
  intro plan again
  have hsame : again = plan := by
    cases staging with
    | none => rfl
    | some edits =>
        by_cases hafter : edits.after.isEmpty = true
        · exact planConfiguration_clears hqt pending snapshot hafter
        · exact planConfiguration_saves hqt pending snapshot hafter
  have hsnapshot : plan.snapshot = snapshot :=
    (planConfiguration_changes qt pending snapshot staging).1
  refine ⟨?_, ?_, ?_, ?_⟩
  · rw [hsame]
  · rw [hsame]
  · rw [hsame]
  · rw [prepareApply, hsnapshot]
    exact hsame

theorem planConfiguration_idempotent_removed :
    let pending : PendingChanges := { removeRegistryExclusions := [fileStagingRegistryRoot] }
    let edits : FileStagingChanges := ⟨[], [⟨.file, "C:\\a".toList⟩], false⟩
    let plan := planConfiguration Qt.ascii pending {} (some edits)
    plan.changes.addRegistryExclusions = [fileStagingRegistryRoot] ∧
      prepareApply Qt.ascii (some edits) plan.changes plan.snapshot = plan := by
  intro pending edits plan
  have hagain := planConfiguration_idempotent Qt.ascii_convertsSeparators pending {} (some edits)
  exact ⟨by decide +kernel, hagain.2.2.2⟩

end Again

end UwfManager
