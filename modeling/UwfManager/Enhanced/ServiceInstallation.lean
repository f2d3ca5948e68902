import UwfManager.Enhanced.RegistryDeletion

/-!
# The installation of the service is persisted

The keys are committed after the service was installed, all that were planned and in their
order.  What fails there is shown as a warning and does not undo the installation.
-/

namespace UwfManager

open RegKey (RegistryCommitTarget)
open ServiceAction

theorem RegistryTreeCommitter.commit_made {Status : Type} (answers : ServiceAnswers Status)
    (targets : List RegistryCommitTarget) (calls : List ServiceCall) :
    (commit answers targets calls).2 = calls ∨
      (commit answers targets calls).2 = calls ++ [.readRegistryFilter] ∨
      (commit answers targets calls).2 =
        calls ++ .readRegistryFilter :: targets.map .commitRegistry := by
  rw [commit]
  split_ifs
  · exact .inl rfl
  · cases hread : answers.readRegistryFilter calls with
    | error thrown =>
      rw [perform_bind_of_error hread]
      exact .inr (.inl rfl)
    | ok value =>
      rw [perform_bind_of_ok hread, commitTargets_eq]
      exact .inr (.inr (by simp))

namespace EnhancedModeOperations

variable {Status : Type} (answers : ServiceAnswers Status) (capability : UwfCapability)

/-- A call before the plan: it plans nothing and commits nothing. -/
def Preliminary (call : ServiceCall) : Prop :=
  call ≠ .planRegistryCommit ∧ ∀ target, call ≠ .commitRegistry target

/-- When a key is committed, all those of the one plan are, and nothing else. -/
def CommitsPlanned (calls made : List ServiceCall) : Prop :=
  ∀ target, .commitRegistry target ∈ made → ∃ planning targets,
    (∀ call ∈ planning, Preliminary call) ∧
    answers.planRegistryCommit (calls ++ planning) = .ok targets ∧
    made = planning ++ [.planRegistryCommit, .readRegistryFilter] ++ targets.map .commitRegistry

theorem CommitsPlanned.of_not_mem {answers : ServiceAnswers Status}
    {calls made : List ServiceCall} (hmade : ∀ target, .commitRegistry target ∉ made) :
    CommitsPlanned answers calls made := by
  intro target hmem
  exact absurd hmem (hmade target)

/-- What follows the plan: the filter is read, and then the targets are committed. -/
theorem planned_made {planning calls : List ServiceCall} {targets : List RegistryCommitTarget}
    (hplanned : answers.planRegistryCommit (calls ++ planning) = .ok targets)
    (hplanning : ∀ call ∈ planning, Preliminary call) :
    ∃ made, ((do
        let result ← RegistryTreeCommitter.commit answers targets
        pure result.summarizeFailures : ServiceAction Text)
          (calls ++ planning ++ [.planRegistryCommit])).2 = calls ++ made ∧
      CommitsPlanned answers calls made := by
  have huncommitted : ∀ target, .commitRegistry target ∉ planning :=
    fun target hmem => (hplanning _ hmem).2 target rfl
  rw [StatefulAction.bind_pure_state]
  rcases RegistryTreeCommitter.commit_made answers targets
    (calls ++ planning ++ [.planRegistryCommit]) with hrun | hrun | hrun
  · refine ⟨planning ++ [.planRegistryCommit], by rw [hrun]; simp, .of_not_mem ?_⟩
    simpa using huncommitted
  · refine ⟨planning ++ [.planRegistryCommit, .readRegistryFilter], by rw [hrun]; simp,
      .of_not_mem ?_⟩
    simpa using huncommitted
  · refine ⟨planning ++ [.planRegistryCommit, .readRegistryFilter] ++
      targets.map .commitRegistry, by rw [hrun]; simp, ?_⟩
    intro target _
    exact ⟨planning, targets, hplanning, hplanned, rfl⟩

theorem persistInstallation_made (calls : List ServiceCall) :
    ∃ warning made, persistInstallation answers capability calls = (.ok warning, calls ++ made) ∧
      CommitsPlanned answers calls made := by
  rw [persistInstallation]
  split_ifs
  · exact ⟨[], [], by simp [Pure.pure, StatefulAction.pure], .of_not_mem (by simp)⟩
  · obtain ⟨warning, hcaught⟩ := caught_returns warningOf (do
      perform .openSession answers.openSession
      let enabled ← perform .readFilter answers.currentEnabled
      if !enabled then pure []
      else do
        perform .openSession answers.openSession
        let targets ← perform .planRegistryCommit answers.planRegistryCommit
        let result ← RegistryTreeCommitter.commit answers targets
        pure result.summarizeFailures) calls
    refine ⟨warning, ?_⟩
    rw [hcaught]
    cases hopened : answers.openSession calls with
    | error thrown =>
      rw [perform_bind_of_error hopened]
      exact ⟨[.openSession], rfl, .of_not_mem (by simp)⟩
    | ok value =>
      rw [perform_bind_of_ok hopened]
      cases hread : answers.currentEnabled (calls ++ [.openSession]) with
      | error thrown =>
        rw [perform_bind_of_error hread]
        exact ⟨[.openSession, .readFilter], by simp, .of_not_mem (by simp)⟩
      | ok enabled =>
        rw [perform_bind_of_ok hread]
        cases enabled with
        | false =>
          refine ⟨[.openSession, .readFilter], ?_, .of_not_mem (by simp)⟩
          simp [Pure.pure, StatefulAction.pure]
        | true =>
          simp only [Bool.not_true, Bool.false_eq_true, if_false]
          cases hagain : answers.openSession (calls ++ [.openSession] ++ [.readFilter]) with
          | error thrown =>
            rw [perform_bind_of_error hagain]
            exact ⟨[.openSession, .readFilter, .openSession], by simp, .of_not_mem (by simp)⟩
          | ok value =>
            rw [perform_bind_of_ok hagain]
            have hlog : calls ++ [.openSession] ++ [.readFilter] ++ [.openSession] =
                calls ++ [.openSession, .readFilter, .openSession] := by simp
            rw [hlog]
            cases hplanned : answers.planRegistryCommit
                (calls ++ [.openSession, .readFilter, .openSession]) with
            | error thrown =>
              rw [perform_bind_of_error hplanned]
              exact ⟨[.openSession, .readFilter, .openSession, .planRegistryCommit], by simp,
                .of_not_mem (by simp)⟩
            | ok targets =>
              rw [perform_bind_of_ok hplanned]
              obtain ⟨made, hmade, hcommits⟩ := planned_made answers hplanned (by simp [Preliminary])
              exact ⟨made, by rw [hmade], hcommits⟩

/-- Whatever the control and the filter answer: keys are committed after the installation, all
of the one plan and no others, and the change fails only with the installation itself or with the last
query. -/
theorem enable_in_order :
    (∀ target, .commitRegistry target ∈ (enable answers capability []).2 →
      ∃ planning targets,
        (∀ call ∈ planning, Preliminary call) ∧
        answers.planRegistryCommit (.installAndStart :: planning) = .ok targets ∧
        (enable answers capability []).2 =
          .installAndStart :: planning ++ [.planRegistryCommit, .readRegistryFilter] ++
            targets.map .commitRegistry ++ [.query]) ∧
    ∀ thrown, (enable answers capability []).1 = .error thrown →
      (answers.installAndStart [] = .error thrown ∧
        (enable answers capability []).2 = [.installAndStart]) ∨
      ∃ before, answers.query before = .error thrown ∧
        (enable answers capability []).2 = before ++ [.query] := by
  cases hinstalled : answers.installAndStart [] with
  | error thrown =>
    have hrun : enable answers capability [] = (.error thrown, [.installAndStart]) :=
      perform_bind_of_error hinstalled
    rw [hrun]
    refine ⟨by simp, ?_⟩
    intro failure hfailure
    obtain rfl := Except.error.inj hfailure
    exact .inl ⟨rfl, rfl⟩
  | ok value =>
    obtain ⟨warning, made, hpersisted, hcommits⟩ :=
      persistInstallation_made answers capability [.installAndStart]
    rw [enable, perform_bind_of_ok hinstalled, List.nil_append,
      StatefulAction.bind_of_ok hpersisted, status]
    have hlog : ∀ rest, rest = [.installAndStart] ++ made ++ [.query] →
        ∀ target, .commitRegistry target ∈ rest → ∃ planning targets,
          (∀ call ∈ planning, Preliminary call) ∧
          answers.planRegistryCommit (.installAndStart :: planning) = .ok targets ∧
          rest = .installAndStart :: planning ++ [.planRegistryCommit, .readRegistryFilter] ++
            targets.map .commitRegistry ++ [.query] := by
      rintro rest rfl target hmem
      obtain ⟨planning, targets, hplanning, hplanned, rfl⟩ :=
        hcommits target (by simpa using hmem)
      exact ⟨planning, targets, hplanning, hplanned, by simp⟩
    cases hquery : answers.query ([.installAndStart] ++ made) with
    | error thrown =>
      rw [perform_bind_of_error hquery]
      refine ⟨hlog _ rfl, ?_⟩
      intro failure hfailure
      obtain rfl := Except.error.inj hfailure
      exact .inr ⟨_, hquery, rfl⟩
    | ok reached =>
      rw [perform_bind_of_ok hquery]
      refine ⟨hlog _ rfl, ?_⟩
      intro failure hfailure
      cases hfailure

end EnhancedModeOperations

end UwfManager
