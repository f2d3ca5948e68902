import UwfManager.Staging.FileStagingTask

/-!
# What a look at a staging task may find

A step either fails for good, leaves the worker running, or finds the task prepared or
done with a result whose failures can be counted.
-/

namespace UwfManager

/-- The failures are counted without overflow, as the size of a container is. -/
def FileStagingCommitResult.Countable (result : FileStagingCommitResult) : Prop :=
  result.failures.length < 2 ^ 64

def PreparationWork.Countable : PreparationWork → Prop
  | .terminal result => result.Countable
  | _ => True

def CommitWork.Countable : CommitWork → Prop
  | .finished _ result => result.Countable
  | _ => True

namespace FileStagingTask

variable {task : FileStagingTask}

/-- The task has completed with a result. -/
structure Done (task : FileStagingTask) (result : FileStagingCommitResult) : Prop where
  completed : task.state = .completed
  kept : task.result = some result
  countable : result.Countable

theorem Done.getResult {result : FileStagingCommitResult} (hdone : task.Done result) :
    task.getResult = .ok result :=
  getResult_eq_ok_iff.2 ⟨by rw [finished, hdone.completed]; rfl, hdone.kept⟩

/-- What a poll of a task that is not prepared yet may find. -/
theorem pollPreparation_cases (hfailure : task.failure = none)
    (hstate : task.state = .notStarted ∨ task.state = .preparing) {work : PreparationWork}
    (hcountable : work.Countable) :
    (∃ thrown, (task.pollPreparation work).1 = .error thrown ∧
        (task.pollPreparation work).2.failure = some thrown) ∨
      ((task.pollPreparation work).1 = .ok false ∧ (task.pollPreparation work).2.failure = none ∧
        (task.pollPreparation work).2.state = .preparing) ∨
      ((task.pollPreparation work).1 = .ok true ∧ (task.pollPreparation work).2.failure = none ∧
        (task.pollPreparation work).2.state = .ready) ∨
      ((task.pollPreparation work).1 = .ok true ∧
        ∃ result, (task.pollPreparation work).2.Done result) := by
  have hunprepared : task.preparationFinished = false := by
    rcases hstate with hstate | hstate
    · simp [preparationFinished, hstate]
    · simp [preparationFinished, hstate]
  unfold pollPreparation
  simp only [hfailure, hunprepared, Bool.false_eq_true, if_false]
  rcases hstate with hstate | hstate
  · rw [if_pos hstate]
    split_ifs
    · exact Or.inr (Or.inr (Or.inr ⟨rfl, _, rfl, rfl, by simp [FileStagingCommitResult.Countable]⟩))
    · cases work with
      | notLaunched thrown => exact Or.inl ⟨thrown, rfl, by simp [recordFailure, hfailure]⟩
      | running => exact Or.inr (Or.inl ⟨rfl, rfl, rfl⟩)
      | failed thrown => exact Or.inr (Or.inl ⟨rfl, rfl, rfl⟩)
      | terminal result => exact Or.inr (Or.inl ⟨rfl, rfl, rfl⟩)
      | ready totalFiles => exact Or.inr (Or.inl ⟨rfl, rfl, rfl⟩)
  · rw [if_neg (by rw [hstate]; decide)]
    cases work with
    | notLaunched thrown => exact Or.inr (Or.inl ⟨rfl, hfailure, hstate⟩)
    | running => exact Or.inr (Or.inl ⟨rfl, hfailure, hstate⟩)
    | failed thrown => exact Or.inl ⟨thrown, rfl, by simp [recordFailure, hfailure]⟩
    | terminal result => exact Or.inr (Or.inr (Or.inr ⟨rfl, result, rfl, rfl, hcountable⟩))
    | ready totalFiles => exact Or.inr (Or.inr (Or.inl ⟨rfl, rfl, rfl⟩))

/-- What a step of a prepared task may find. -/
theorem advance_cases (hfailure : task.failure = none)
    (hstate : task.state = .ready ∨ task.state = .committing) {work : CommitWork}
    (hcountable : work.Countable) :
    (∃ thrown, (task.advance work).1 = .error thrown ∧
        (task.advance work).2.failure = some thrown) ∨
      (∃ progress, (task.advance work).1 = .ok progress ∧ (task.advance work).2.failure = none ∧
        (task.advance work).2.state = .committing) ∨
      (∃ progress, (task.advance work).1 = .ok progress ∧
        ∃ result, (task.advance work).2.Done result) := by
  have hprepared : task.preparationFinished = true := by
    rcases hstate with hstate | hstate
    · simp [preparationFinished, hstate]
    · simp [preparationFinished, hstate]
  have hunfinished : task.finished = false := by
    rcases hstate with hstate | hstate
    · simp [finished, hstate]
    · simp [finished, hstate]
  unfold advance
  simp only [hfailure, hprepared, hunfinished, Bool.not_true, Bool.false_eq_true, if_false]
  cases work with
  | notLaunched thrown =>
      dsimp only
      split_ifs
      · exact Or.inl ⟨thrown, rfl, by simp [recordFailure, hfailure]⟩
      · exact Or.inr (Or.inl ⟨task.progress, rfl, rfl, rfl⟩)
  | running progress => exact Or.inr (Or.inl ⟨progress, rfl, rfl, rfl⟩)
  | failed thrown => exact Or.inl ⟨thrown, rfl, by simp [recordFailure]⟩
  | finished progress result =>
      exact Or.inr (Or.inr ⟨progress, rfl, result, rfl, rfl, hcountable⟩)

end FileStagingTask

end UwfManager
