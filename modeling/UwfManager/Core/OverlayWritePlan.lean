import UwfManager.Core.UwfModel

/-!
# The order of overlay writes

UWF checks every overlay write against the values stored at that moment, so a
change of several fields needs an order in which no intermediate state is
rejected, also when single writes fail.  This file models the planner and the
rule under which its steps are executed, and proves that every state such a
run can reach is valid.
-/

namespace UwfManager

inductive OverlayField where
  | type
  | maximumSize
  | warningThreshold
  | criticalThreshold
  deriving DecidableEq, Repr

structure OverlayWriteStep where
  field : OverlayField
  requiresPrevious : Bool := false
  deriving DecidableEq, Repr

/-- Type and size.  The size is raised before the overlay moves to disk, and
released only after it moved to memory. -/
def planStorageWrites (changes : OverlayConfigDelta) : List OverlayWriteStep :=
  match changes.type, changes.maximumSizeMb with
  | some .disk, some _ => [⟨.maximumSize, false⟩, ⟨.type, true⟩]
  | some _, some _ => [⟨.type, false⟩, ⟨.maximumSize, true⟩]
  | some _, none => [⟨.type, false⟩]
  | none, some _ => [⟨.maximumSize, false⟩]
  | none, none => []

/-- The two thresholds.  A nonzero warning value waits for a critical value
that leaves room for it. -/
def planThresholdWrites (baseline : OverlayConfig) (changes : OverlayConfigDelta) :
    List OverlayWriteStep :=
  match changes.warningThresholdMb, changes.criticalThresholdMb with
  | some warning, some critical =>
      let warningNeedsCritical :=
        baseline.criticalThresholdMb ≠ 0 ∧ warning ≥ baseline.criticalThresholdMb
      let enableCriticalFirst :=
        baseline.criticalThresholdMb = 0 ∧ critical > baseline.warningThresholdMb
      if warning ≠ 0 ∧ (warningNeedsCritical ∨ enableCriticalFirst) then
        [⟨.criticalThreshold, false⟩, ⟨.warningThreshold, true⟩]
      else
        [⟨.warningThreshold, false⟩,
          ⟨.criticalThreshold, critical ≤ baseline.warningThresholdMb⟩]
  | some _, none => [⟨.warningThreshold, false⟩]
  | none, some _ => [⟨.criticalThreshold, false⟩]
  | none, none => []

def planOverlayWrites (baseline : OverlayConfig) (changes : OverlayConfigDelta) :
    List OverlayWriteStep :=
  planStorageWrites changes ++ planThresholdWrites baseline changes

/-- Whether the change sets the field. -/
def OverlayConfigDelta.touches (delta : OverlayConfigDelta) : OverlayField → Bool
  | .type => delta.type.isSome
  | .maximumSize => delta.maximumSizeMb.isSome
  | .warningThreshold => delta.warningThresholdMb.isSome
  | .criticalThreshold => delta.criticalThresholdMb.isSome

theorem count_planStorageWrites (changes : OverlayConfigDelta) (field : OverlayField) :
    ((planStorageWrites changes).map (·.field)).count field =
      if (field = .type ∨ field = .maximumSize) ∧ changes.touches field then 1 else 0 := by
  obtain ⟨type, size, warning, critical⟩ := changes
  cases type with
  | none => cases size <;> cases field <;> rfl
  | some type => cases type <;> cases size <;> cases field <;> rfl

/-- With both thresholds set, the plan writes them in one of the two orders. -/
theorem fields_planThresholdWrites (baseline : OverlayConfig) (warning critical : UInt32)
    (type : Option OverlayType) (size : Option UInt32) :
    (planThresholdWrites baseline ⟨type, size, some warning, some critical⟩).map
        (·.field) = [.criticalThreshold, .warningThreshold] ∨
      (planThresholdWrites baseline ⟨type, size, some warning, some critical⟩).map
        (·.field) = [.warningThreshold, .criticalThreshold] := by
  simp only [planThresholdWrites]
  split
  · exact Or.inl rfl
  · exact Or.inr rfl

theorem count_planThresholdWrites (baseline : OverlayConfig)
    (changes : OverlayConfigDelta) (field : OverlayField) :
    ((planThresholdWrites baseline changes).map (·.field)).count field =
      if (field = .warningThreshold ∨ field = .criticalThreshold) ∧
        changes.touches field then 1 else 0 := by
  obtain ⟨type, size, warning, critical⟩ := changes
  cases warning with
  | none => cases critical <;> cases field <;> rfl
  | some warning =>
      cases critical with
      | none => cases field <;> rfl
      | some critical =>
          rcases fields_planThresholdWrites baseline warning critical type size with
            hfields | hfields <;> rw [hfields] <;> cases field <;> rfl

/-- A plan writes each changed field once and no other field. -/
theorem count_planOverlayWrites (baseline : OverlayConfig)
    (changes : OverlayConfigDelta) (field : OverlayField) :
    ((planOverlayWrites baseline changes).map (·.field)).count field =
      if changes.touches field then 1 else 0 := by
  rw [planOverlayWrites, List.map_append, List.count_append,
    count_planStorageWrites, count_planThresholdWrites]
  cases field <;> simp

/-! ## Executing a plan -/

inductive StepResult where
  | confirmed
  | failed
  deriving DecidableEq, Repr

/-- What a write that was attempted did: a failed or unconfirmed write may have
taken effect. -/
inductive WriteOutcome where
  | confirmed
  | failed (tookEffect : Bool)
  deriving DecidableEq, Repr

structure OverlayRun where
  state : OverlayConfig
  previous : StepResult := .confirmed
  deriving DecidableEq, Repr

/-- Stores the value the change holds for the field. -/
def OverlayConfigDelta.write (delta : OverlayConfigDelta) (field : OverlayField)
    (state : OverlayConfig) : OverlayConfig :=
  match field with
  | .type => { state with type := delta.type.getD state.type }
  | .maximumSize =>
      { state with maximumSizeMb := delta.maximumSizeMb.getD state.maximumSizeMb }
  | .warningThreshold =>
      { state with
        warningThresholdMb := delta.warningThresholdMb.getD state.warningThresholdMb }
  | .criticalThreshold =>
      { state with
        criticalThresholdMb := delta.criticalThresholdMb.getD state.criticalThresholdMb }

/-- One step of the executor: a step that requires its predecessor is skipped
unless the predecessor was confirmed, and a skipped step counts as failed. -/
def executeStep (delta : OverlayConfigDelta) (run : OverlayRun)
    (step : OverlayWriteStep) (outcome : WriteOutcome) : OverlayRun :=
  if step.requiresPrevious ∧ run.previous = .failed then
    { run with previous := .failed }
  else
    match outcome with
    | .confirmed => ⟨delta.write step.field run.state, .confirmed⟩
    | .failed true => ⟨delta.write step.field run.state, .failed⟩
    | .failed false => ⟨run.state, .failed⟩

/-- All states of a run, the first and the last included; `outcome i` is the
fate of the `i`-th step. -/
def overlayRuns (delta : OverlayConfigDelta) (outcome : ℕ → WriteOutcome)
    (run : OverlayRun) : List OverlayWriteStep → List OverlayRun
  | [] => [run]
  | step :: steps =>
      run :: overlayRuns delta (fun i => outcome (i + 1))
        (executeStep delta run step (outcome 0)) steps

/-- The run after the last step. -/
def executeSteps (delta : OverlayConfigDelta) (outcome : ℕ → WriteOutcome)
    (run : OverlayRun) : List OverlayWriteStep → OverlayRun
  | [] => run
  | step :: steps =>
      executeSteps delta (fun i => outcome (i + 1))
        (executeStep delta run step (outcome 0)) steps

theorem executeSteps_mem_overlayRuns (delta : OverlayConfigDelta)
    (outcome : ℕ → WriteOutcome) (run : OverlayRun) (steps : List OverlayWriteStep) :
    executeSteps delta outcome run steps ∈ overlayRuns delta outcome run steps := by
  induction steps generalizing outcome run with
  | nil => exact List.mem_singleton.2 rfl
  | cons step steps ih => exact List.mem_cons_of_mem _ (ih _ _)

/-- A run of two plans in sequence visits the states of the first and then
those of the second. -/
theorem mem_overlayRuns_append {delta : OverlayConfigDelta}
    {outcome : ℕ → WriteOutcome} {run reached : OverlayRun}
    {first second : List OverlayWriteStep}
    (hreached : reached ∈ overlayRuns delta outcome run (first ++ second)) :
    reached ∈ overlayRuns delta outcome run first ∨
      reached ∈ overlayRuns delta (fun i => outcome (i + first.length))
        (executeSteps delta outcome run first) second := by
  induction first generalizing outcome run with
  | nil => exact Or.inr hreached
  | cons step steps ih =>
      rcases List.mem_cons.1 hreached with rfl | hlater
      · exact Or.inl List.mem_cons_self
      · exact (ih hlater).imp_left (List.mem_cons_of_mem _)

/-- Any step keeps the state or writes its own field. -/
theorem executeStep_state (delta : OverlayConfigDelta) (run : OverlayRun)
    (step : OverlayWriteStep) (outcome : WriteOutcome) :
    (executeStep delta run step outcome).state = run.state ∨
      (executeStep delta run step outcome).state = delta.write step.field run.state := by
  unfold executeStep
  split
  · exact Or.inl rfl
  · rcases outcome with _ | _ | _
    · exact Or.inr rfl
    · exact Or.inl rfl
    · exact Or.inr rfl

/-- A step that does not wait was either confirmed, and then written, or it
failed. -/
theorem executeStep_free (delta : OverlayConfigDelta) (run : OverlayRun)
    (field : OverlayField) (outcome : WriteOutcome) :
    executeStep delta run ⟨field, false⟩ outcome =
        ⟨delta.write field run.state, .confirmed⟩ ∨
      (executeStep delta run ⟨field, false⟩ outcome).previous = .failed := by
  rcases outcome with _ | _ | _
  · exact Or.inl (by simp [executeStep])
  · exact Or.inr (by simp [executeStep])
  · exact Or.inr (by simp [executeStep])

theorem executeStep_skipped (delta : OverlayConfigDelta) {run : OverlayRun}
    (field : OverlayField) (outcome : WriteOutcome) (hprevious : run.previous = .failed) :
    (executeStep delta run ⟨field, true⟩ outcome).state = run.state := by
  simp [executeStep, hprevious]

/-- A single write leaves the old state or the written one. -/
theorem state_of_single {delta : OverlayConfigDelta} {outcome : ℕ → WriteOutcome}
    {run reached : OverlayRun} {step : OverlayWriteStep}
    (hreached : reached ∈ overlayRuns delta outcome run [step]) :
    reached.state = run.state ∨
      reached.state = delta.write step.field run.state := by
  simp only [overlayRuns, List.mem_cons, List.not_mem_nil, or_false] at hreached
  rcases hreached with rfl | rfl
  · exact Or.inl rfl
  · exact executeStep_state delta run step (outcome 0)

/-- When the second write waits for the first, it is made only on top of it. -/
theorem state_of_guarded_pair {delta : OverlayConfigDelta}
    {outcome : ℕ → WriteOutcome} {run reached : OverlayRun}
    {first second : OverlayField}
    (hreached :
      reached ∈ overlayRuns delta outcome run [⟨first, false⟩, ⟨second, true⟩]) :
    reached.state = run.state ∨ reached.state = delta.write first run.state ∨
      reached.state = delta.write second (delta.write first run.state) := by
  simp only [overlayRuns, List.mem_cons, List.not_mem_nil, or_false] at hreached
  have hfirst := executeStep_state delta run ⟨first, false⟩ (outcome 0)
  rcases hreached with rfl | rfl | rfl
  · exact Or.inl rfl
  · exact hfirst.imp_right Or.inl
  · rcases executeStep_free delta run first (outcome 0) with hconfirmed | hfailed
    · rw [hconfirmed]
      exact Or.inr (executeStep_state delta _ ⟨second, true⟩ _)
    · rw [executeStep_skipped delta second _ hfailed]
      exact hfirst.imp_right Or.inl

/-- Without the guard the second write may also be made on the old state. -/
theorem state_of_free_pair {delta : OverlayConfigDelta}
    {outcome : ℕ → WriteOutcome} {run reached : OverlayRun}
    {first second : OverlayField}
    (hreached :
      reached ∈ overlayRuns delta outcome run [⟨first, false⟩, ⟨second, false⟩]) :
    reached.state = run.state ∨ reached.state = delta.write first run.state ∨
      reached.state = delta.write second run.state ∨
      reached.state = delta.write second (delta.write first run.state) := by
  rw [← List.singleton_append] at hreached
  rcases mem_overlayRuns_append hreached with hfirst | hsecond
  · exact (state_of_single hfirst).imp_right Or.inl
  · have hbase : (executeSteps delta outcome run [⟨first, false⟩]).state = run.state ∨
        (executeSteps delta outcome run [⟨first, false⟩]).state =
          delta.write first run.state :=
      state_of_single (executeSteps_mem_overlayRuns _ _ _ _)
    rcases state_of_single hsecond with hstate | hstate <;> rcases hbase with hold | hwritten
    · exact Or.inl (hstate.trans hold)
    · exact Or.inr (Or.inl (hstate.trans hwritten))
    · exact Or.inr (Or.inr (Or.inl (by rw [hstate, hold])))
    · exact Or.inr (Or.inr (Or.inr (by rw [hstate, hwritten])))

/-! ## Safety under partial failure -/

/-- Every state of the storage writes is valid, and they leave the thresholds
alone. -/
theorem storageWrites_safe {baseline : OverlayConfig} {delta : OverlayConfigDelta}
    (hbaseline : baseline.StorageValid)
    (htarget : (delta.applyTo baseline).StorageValid)
    {outcome : ℕ → WriteOutcome} {previous : StepResult} {reached : OverlayRun}
    (hreached :
      reached ∈ overlayRuns delta outcome ⟨baseline, previous⟩ (planStorageWrites delta)) :
    reached.state.StorageValid ∧
      reached.state.warningThresholdMb = baseline.warningThresholdMb ∧
      reached.state.criticalThresholdMb = baseline.criticalThresholdMb := by
  obtain ⟨type, size, warning, critical⟩ := delta
  simp only [OverlayConfig.StorageValid, OverlayConfigDelta.applyTo] at *
  cases type with
  | none =>
      cases size with
      | none =>
          rw [List.mem_singleton.1 hreached]
          exact ⟨hbaseline, rfl, rfl⟩
      | some size =>
          rcases state_of_single hreached with hstate | hstate <;> rw [hstate]
          · exact ⟨hbaseline, rfl, rfl⟩
          · exact ⟨htarget, rfl, rfl⟩
  | some type =>
      cases size with
      | none =>
          have hsingle : planStorageWrites ⟨some type, none, warning, critical⟩ =
              [⟨.type, false⟩] := by cases type <;> rfl
          rw [hsingle] at hreached
          rcases state_of_single hreached with hstate | hstate <;> rw [hstate]
          · exact ⟨hbaseline, rfl, rfl⟩
          · exact ⟨htarget, rfl, rfl⟩
      | some size =>
          cases type <;> rcases state_of_guarded_pair hreached with hstate | hstate | hstate <;>
            rw [hstate] <;> refine ⟨?_, rfl, rfl⟩ <;>
            simp_all [OverlayConfigDelta.write]

/-- Every state of the threshold writes is valid, and they leave the storage
alone. -/
theorem thresholdWrites_safe {baseline : OverlayConfig} {delta : OverlayConfigDelta}
    {start : OverlayConfig}
    (hwarning : start.warningThresholdMb = baseline.warningThresholdMb)
    (hcritical : start.criticalThresholdMb = baseline.criticalThresholdMb)
    (hbaseline : baseline.ThresholdsValid)
    (htarget : (delta.applyTo baseline).ThresholdsValid)
    {outcome : ℕ → WriteOutcome} {previous : StepResult} {reached : OverlayRun}
    (hreached :
      reached ∈ overlayRuns delta outcome ⟨start, previous⟩
        (planThresholdWrites baseline delta)) :
    reached.state.ThresholdsValid ∧ reached.state.type = start.type ∧
      reached.state.maximumSizeMb = start.maximumSizeMb := by
  obtain ⟨type, size, warning, critical⟩ := delta
  simp only [OverlayConfig.ThresholdsValid, OverlayConfigDelta.applyTo] at *
  cases warning with
  | none =>
      cases critical with
      | none =>
          rw [List.mem_singleton.1 hreached]
          simpa [hwarning, hcritical] using hbaseline
      | some critical =>
          rcases state_of_single hreached with hstate | hstate <;> rw [hstate] <;>
            simp_all [OverlayConfigDelta.write]
  | some warning =>
      cases critical with
      | none =>
          rcases state_of_single hreached with hstate | hstate <;> rw [hstate] <;>
            simp_all [OverlayConfigDelta.write]
      | some critical =>
          simp only [planThresholdWrites] at hreached
          split at hreached
          case isTrue hfirst =>
            -- the critical value goes first: it exceeds the old warning value
            rcases state_of_guarded_pair hreached with hstate | hstate | hstate <;>
              rw [hstate] <;> refine ⟨?_, rfl, rfl⟩ <;>
              simp only [OverlayConfigDelta.write, Option.getD_some] at * <;> grind
          case isFalse hfirst =>
            by_cases hguard : critical ≤ baseline.warningThresholdMb
            · simp only [hguard, decide_true] at hreached
              rcases state_of_guarded_pair hreached with hstate | hstate | hstate <;>
                rw [hstate] <;> refine ⟨?_, rfl, rfl⟩ <;>
                simp only [OverlayConfigDelta.write, Option.getD_some] at * <;> grind
            · simp only [hguard, decide_false] at hreached
              rcases state_of_free_pair hreached with hstate | hstate | hstate | hstate <;>
                rw [hstate] <;> refine ⟨?_, rfl, rfl⟩ <;>
                simp only [OverlayConfigDelta.write, Option.getD_some] at * <;> grind

/-- When every step is confirmed, a run makes all the writes in order. -/
theorem executeSteps_confirmed (delta : OverlayConfigDelta) (state : OverlayConfig)
    (steps : List OverlayWriteStep) :
    executeSteps delta (fun _ => .confirmed) ⟨state, .confirmed⟩ steps =
      ⟨steps.foldl (fun state step => delta.write step.field state) state,
        .confirmed⟩ := by
  induction steps generalizing state with
  | nil => rfl
  | cons step steps ih =>
      have hstep : executeStep delta ⟨state, .confirmed⟩ step .confirmed =
          ⟨delta.write step.field state, .confirmed⟩ := by
        simp [executeStep]
      rw [executeSteps, hstep, ih, List.foldl_cons]

theorem foldl_write_planOverlayWrites (baseline : OverlayConfig)
    (delta : OverlayConfigDelta) :
    (planOverlayWrites baseline delta).foldl
        (fun state step => delta.write step.field state) baseline =
      delta.applyTo baseline := by
  obtain ⟨type, size, warning, critical⟩ := delta
  have hthresholds : ∀ start : OverlayConfig,
      (planThresholdWrites baseline ⟨type, size, warning, critical⟩).foldl
          (fun state step =>
            OverlayConfigDelta.write ⟨type, size, warning, critical⟩ step.field state)
          start =
        { start with
          warningThresholdMb := warning.getD start.warningThresholdMb
          criticalThresholdMb := critical.getD start.criticalThresholdMb } := by
    intro start
    cases warning <;> cases critical <;> try rfl
    simp only [planThresholdWrites]
    split <;> rfl
  rw [planOverlayWrites, List.foldl_append, hthresholds]
  cases type with
  | none => cases size <;> rfl
  | some type => cases type <;> cases size <;> rfl

/-- Whatever single writes fail, and whether or not the failed ones took
effect, every state reached while a plan is executed is valid; the plan writes
each changed field exactly once, and it arrives at the target when no step
fails. -/
theorem planOverlayWrites_safe (baseline : OverlayConfig) (delta : OverlayConfigDelta)
    (hbaseline : baseline.Valid) (htarget : (delta.applyTo baseline).Valid) :
    (∀ (outcome : ℕ → WriteOutcome),
      ∀ reached ∈ overlayRuns delta outcome ⟨baseline, .confirmed⟩
        (planOverlayWrites baseline delta), reached.state.Valid) ∧
      (∀ field, ((planOverlayWrites baseline delta).map (·.field)).count field =
        if delta.touches field then 1 else 0) ∧
      (executeSteps delta (fun _ => .confirmed) ⟨baseline, .confirmed⟩
        (planOverlayWrites baseline delta)).state = delta.applyTo baseline := by
  refine ⟨?_, count_planOverlayWrites baseline delta, ?_⟩
  · intro outcome reached hreached
    rcases mem_overlayRuns_append hreached with hstorage | hthresholds
    · obtain ⟨hvalid, hwarning, hcritical⟩ :=
        storageWrites_safe hbaseline.storage htarget.storage hstorage
      refine ⟨hvalid, ?_⟩
      simpa only [OverlayConfig.ThresholdsValid, hwarning, hcritical] using
        hbaseline.thresholds
    · obtain ⟨hvalid, hwarning, hcritical⟩ :=
        storageWrites_safe hbaseline.storage htarget.storage
          (executeSteps_mem_overlayRuns delta outcome ⟨baseline, .confirmed⟩
            (planStorageWrites delta))
      obtain ⟨hthresholds, htype, hsize⟩ :=
        thresholdWrites_safe hwarning hcritical hbaseline.thresholds htarget.thresholds
          hthresholds
      refine ⟨?_, hthresholds⟩
      simpa only [OverlayConfig.StorageValid, htype, hsize] using hvalid
  · rw [executeSteps_confirmed, foldl_write_planOverlayWrites]

/-- Moving a small memory overlay to disk and raising both thresholds. -/
theorem planOverlayWrites_safe_toDisk :
    planOverlayWrites ⟨.ram, 512, 256, 384⟩
        ⟨some .disk, some 2048, some 1024, some 1536⟩ =
      [⟨.maximumSize, false⟩, ⟨.type, true⟩, ⟨.criticalThreshold, false⟩,
        ⟨.warningThreshold, true⟩] ∧
      ∀ (outcome : ℕ → WriteOutcome),
        ∀ reached ∈ overlayRuns ⟨some .disk, some 2048, some 1024, some 1536⟩ outcome
          ⟨⟨.ram, 512, 256, 384⟩, .confirmed⟩
          (planOverlayWrites ⟨.ram, 512, 256, 384⟩
            ⟨some .disk, some 2048, some 1024, some 1536⟩), reached.state.Valid :=
  ⟨by decide, (planOverlayWrites_safe ⟨.ram, 512, 256, 384⟩
    ⟨some .disk, some 2048, some 1024, some 1536⟩ (by decide) (by decide)).1⟩

end UwfManager
