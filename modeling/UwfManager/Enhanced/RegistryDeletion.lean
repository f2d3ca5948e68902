import UwfManager.Enhanced.EnhancedModeOperations
import UwfManager.Library.CallLog

/-!
# The deletion of registry keys is accounted for

Every target is asked for once before the first deletion is committed, only the existing
ones are deleted, and each target ends as committed, as skipped or as a recorded failure.
-/

namespace UwfManager

open RegKey (RegistryCommitTarget)
open ServiceAction CallLog

/-- A control and a filter that refuse nothing. -/
def ServiceAnswers.willing (plan : List RegistryCommitTarget) (state : RemovalState)
    (present : RegistryCommitTarget → Bool) : ServiceAnswers Unit where
  openSession := fun _ => .ok ()
  currentEnabled := fun _ => .ok true
  readRegistryFilter := fun _ => .ok ()
  planRegistryCommit := fun _ => .ok plan
  planRegistryDeletion := fun _ => .ok plan
  registryTargetExists := fun target _ => .ok (present target)
  commitRegistry := fun _ _ => .ok ()
  commitRegistryDeletion := fun _ _ => .ok ()
  installAndStart := fun _ => .ok ()
  start := fun _ => .ok ()
  stopAndMarkForDeletion := fun _ => .ok state
  deleteRegistryRemnants := fun _ => .ok ()
  query := fun _ => .ok ()

/-! ## What the targets were answered -/

section Answered

variable {A : Type} {call : RegistryCommitTarget → ServiceCall}
  {answer : RegistryCommitTarget → List ServiceCall → Except Thrown A}

def isThrown : Except Thrown A → Bool
  | .ok _ => false
  | .error _ => true

/-- The record of everything that was thrown. -/
def thrownFailures (answers : List (RegistryCommitTarget × Except Thrown A)) :
    List RegistryCommitFailure :=
  answers.filterMap fun entry =>
    match entry.2 with
    | .ok _ => none
    | .error thrown => some (.ofThrown entry.1 thrown)

theorem exists_of_mem_thrownFailures {targets : List RegistryCommitTarget}
    {calls : List ServiceCall} {failure : RegistryCommitFailure}
    (hmem : failure ∈ thrownFailures (answered call answer targets calls)) :
    ∃ earlier thrown, calls <+: earlier ∧
      earlier ++ [call failure.target] <+: calls ++ targets.map call ∧
      answer failure.target earlier = .error thrown ∧
      failure = .ofThrown failure.target thrown := by
  obtain ⟨⟨target, thrown | value⟩, hentry, hfailure⟩ := List.mem_filterMap.1 hmem
  · obtain rfl := Option.some.inj hfailure
    obtain ⟨earlier, hstart, hprefix, hanswer⟩ := exists_of_mem_answered hentry
    exact ⟨earlier, thrown, hstart, hprefix, hanswer, rfl⟩
  · cases hfailure

@[simp] theorem thrownFailures_targets
    (answers : List (RegistryCommitTarget × Except Thrown A)) :
    (thrownFailures answers).map RegistryCommitFailure.target = itemsWith isThrown answers := by
  induction answers with
  | nil => rfl
  | cons entry rest ih =>
    obtain ⟨target, thrown | value⟩ := entry
    · simpa [thrownFailures, itemsWith, isThrown, RegistryCommitFailure.ofThrown] using ih
    · simpa [thrownFailures, itemsWith, isThrown] using ih

end Answered

def succeeds : Except Thrown Unit → Bool
  | .ok () => true
  | .error _ => false

/-- The probe answered that the target is there, or that it is not. -/
def isAnswer (present : Bool) : Except Thrown Bool → Bool
  | .ok found => found == present
  | .error _ => false

/-- Every target was committed or failed. -/
theorem perm_of_committed (answers : List (RegistryCommitTarget × Except Thrown Unit)) :
    (itemsWith succeeds answers ++ itemsWith isThrown answers).Perm
      (answers.map Prod.fst) := by
  induction answers with
  | nil => exact List.Perm.refl _
  | cons entry rest ih =>
    obtain ⟨target, thrown | value⟩ := entry
    · simpa [itemsWith, succeeds, isThrown] using List.perm_middle.trans (ih.cons target)
    · simpa [itemsWith, succeeds, isThrown] using ih.cons target

/-- Every target is there, is not there or could not be asked for. -/
theorem perm_of_probed (answers : List (RegistryCommitTarget × Except Thrown Bool)) :
    (itemsWith (isAnswer true) answers ++ itemsWith (isAnswer false) answers ++
      itemsWith isThrown answers).Perm (answers.map Prod.fst) := by
  induction answers with
  | nil => exact List.Perm.refl _
  | cons entry rest ih =>
    obtain ⟨target, thrown | found⟩ := entry
    · simpa [itemsWith, isAnswer, isThrown] using List.perm_middle.trans (ih.cons target)
    · cases found with
      | true => simpa [itemsWith, isAnswer, isThrown] using ih.cons target
      | false =>
        have hmiddle : (itemsWith (isAnswer true) rest ++
            target :: (itemsWith (isAnswer false) rest ++ itemsWith isThrown rest)).Perm
            (target :: (itemsWith (isAnswer true) rest ++
              (itemsWith (isAnswer false) rest ++ itemsWith isThrown rest))) :=
          List.perm_middle
        simpa [itemsWith, isAnswer, isThrown] using
          hmiddle.trans (by simpa [itemsWith] using ih.cons target)

/-! ## The two loops -/

namespace RegistryTreeCommitter

variable {Status : Type} (answers : ServiceAnswers Status)

theorem commitTargets_eq (call : RegistryCommitTarget → ServiceCall)
    (answer : RegistryCommitTarget → List ServiceCall → Except Thrown Unit)
    (targets : List RegistryCommitTarget) (result : RegistryCommitResult)
    (calls : List ServiceCall) :
    commitTargets call answer targets result calls =
      (.ok { result with
        committed := result.committed +
          (itemsWith succeeds (answered call answer targets calls)).length
        failures := result.failures ++
          thrownFailures (answered call answer targets calls) },
        calls ++ targets.map call) := by
  induction targets generalizing result calls with
  | nil => simp [commitTargets, answered, itemsWith, thrownFailures, Pure.pure,
      StatefulAction.pure]
  | cons target rest ih =>
    rw [commitTargets, answered]
    cases hanswer : answer target calls with
    | error thrown =>
      simp [hanswer, ih, itemsWith, succeeds, thrownFailures,
        RegistryCommitResult.recordFailure]
    | ok value =>
      simp [hanswer, ih, itemsWith, succeeds, thrownFailures]
      omega

theorem probeTargets_eq (targets : List RegistryCommitTarget) (result : RegistryCommitResult)
    (existing : List RegistryCommitTarget) (calls : List ServiceCall) :
    probeTargets answers targets (result, existing) calls =
      (.ok ({ result with
        skipped := result.skipped + (itemsWith (isAnswer false)
          (answered .registryTargetExists answers.registryTargetExists targets calls)).length
        failures := result.failures ++ thrownFailures
          (answered .registryTargetExists answers.registryTargetExists targets calls) },
        existing ++ itemsWith (isAnswer true)
          (answered .registryTargetExists answers.registryTargetExists targets calls)),
        calls ++ targets.map .registryTargetExists) := by
  induction targets generalizing result existing calls with
  | nil => simp [probeTargets, answered, itemsWith, thrownFailures, Pure.pure,
      StatefulAction.pure]
  | cons target rest ih =>
    rw [probeTargets, answered]
    cases hanswer : answers.registryTargetExists target calls with
    | error thrown =>
      simp [hanswer, ih, itemsWith, isAnswer, thrownFailures,
        RegistryCommitResult.recordFailure]
    | ok found =>
      cases found with
      | true => simp [hanswer, ih, itemsWith, isAnswer, thrownFailures]
      | false =>
        simp [hanswer, ih, itemsWith, isAnswer, thrownFailures]
        omega

/-! ## The deletion -/

section CommitDeletion

variable (targets : List RegistryCommitTarget) (calls : List ServiceCall)

/-- What the targets were answered by the probes of a deletion. -/
abbrev probed : List (RegistryCommitTarget × Except Thrown Bool) :=
  answered .registryTargetExists answers.registryTargetExists targets calls

abbrev existing : List RegistryCommitTarget :=
  itemsWith (isAnswer true) (probed answers targets calls)

/-- The calls that precede the first commit of a deletion. -/
abbrev inspected : List ServiceCall := calls ++ targets.map .registryTargetExists

abbrev deleted : List (RegistryCommitTarget × Except Thrown Unit) :=
  answered .commitRegistryDeletion answers.commitRegistryDeletion
    (existing answers targets calls) (inspected targets calls ++ [.readRegistryFilter])

/-- A deletion ends after its probes where nothing exists, fails where the filter cannot be
read, or takes every target that exists. -/
theorem commitDeletion_cases :
    (existing answers targets calls = [] ∧
      commitDeletion answers targets calls =
        (.ok { attempted := targets.length
               skipped := (itemsWith (isAnswer false) (probed answers targets calls)).length
               failures := thrownFailures (probed answers targets calls) },
          inspected targets calls)) ∨
    (∃ thrown, answers.readRegistryFilter (inspected targets calls) = .error thrown ∧
      commitDeletion answers targets calls =
        (.error thrown, inspected targets calls ++ [.readRegistryFilter])) ∨
    commitDeletion answers targets calls =
      (.ok { attempted := targets.length
             committed := (itemsWith succeeds (deleted answers targets calls)).length
             skipped := (itemsWith (isAnswer false) (probed answers targets calls)).length
             failures := thrownFailures (probed answers targets calls) ++
              thrownFailures (deleted answers targets calls) },
        inspected targets calls ++ [.readRegistryFilter] ++
          (existing answers targets calls).map .commitRegistryDeletion) := by
  have hprobes := probeTargets_eq answers targets { attempted := targets.length } [] calls
  rw [commitDeletion, StatefulAction.bind_of_ok hprobes]
  simp only [List.nil_append, zero_add]
  cases hexisting : existing answers targets calls with
  | nil =>
    refine .inl ⟨rfl, ?_⟩
    rw [if_pos (by simpa using hexisting)]
    rfl
  | cons first rest =>
    rw [if_neg (by simp [hexisting])]
    cases hread : answers.readRegistryFilter (inspected targets calls) with
    | error thrown =>
      refine .inr (.inl ⟨thrown, rfl, ?_⟩)
      exact perform_bind_of_error hread
    | ok value =>
      refine .inr (.inr ?_)
      rw [perform_bind_of_ok hread, commitTargets_eq, ← hexisting]
      simp only [zero_add]

theorem thrown_probe {failure : RegistryCommitFailure}
    (hmem : failure ∈ thrownFailures (probed answers targets calls)) :
    ∃ earlier thrown, failure = .ofThrown failure.target thrown ∧
      earlier ++ [.registryTargetExists failure.target] <+: inspected targets calls ∧
      answers.registryTargetExists failure.target earlier = .error thrown := by
  obtain ⟨earlier, thrown, -, hprefix, hanswer, hrecord⟩ := exists_of_mem_thrownFailures hmem
  exact ⟨earlier, thrown, hrecord, hprefix, hanswer⟩

theorem probed_as {present : Bool} {target : RegistryCommitTarget}
    (hmem : target ∈ itemsWith (isAnswer present) (probed answers targets calls)) :
    ∃ earlier, calls <+: earlier ∧
      earlier ++ [.registryTargetExists target] <+: inspected targets calls ∧
      answers.registryTargetExists target earlier = .ok present := by
  obtain ⟨earlier, hstart, hprefix, hanswer⟩ := exists_of_mem_itemsWith hmem
  refine ⟨earlier, hstart, hprefix, ?_⟩
  revert hanswer
  cases answers.registryTargetExists target earlier with
  | error thrown => simp [isAnswer]
  | ok found => simp [isAnswer]

/-- What exists is committed or fails, and nothing else is dealt with twice. -/
theorem perm_of_deleted :
    (itemsWith succeeds (deleted answers targets calls) ++
      itemsWith (isAnswer false) (probed answers targets calls) ++
      (itemsWith isThrown (probed answers targets calls) ++
        itemsWith isThrown (deleted answers targets calls))).Perm targets := by
  have hprobed := perm_of_probed (probed answers targets calls)
  have hdeleted := perm_of_committed (deleted answers targets calls)
  rw [answered_fst] at hprobed hdeleted
  rw [List.append_assoc] at hprobed
  refine List.Perm.trans ?_ ((hdeleted.append_right _).trans hprobed)
  rw [List.append_assoc, List.append_assoc]
  refine List.Perm.append_left _ ?_
  rw [← List.append_assoc]
  exact List.perm_append_comm

/-- What a deletion that returned has done: each target was committed, was not there or stands
in the failures. -/
structure DeletionAccounted (result : RegistryCommitResult) (after : List ServiceCall)
    (committed skipped : List RegistryCommitTarget) : Prop where
  partition :
    (committed ++ skipped ++ result.failures.map RegistryCommitFailure.target).Perm targets
  attempted : result.attempted = targets.length
  committed_count : result.committed = committed.length
  skipped_count : result.skipped = skipped.length
  was_there : ∀ target ∈ committed, ∃ earlier, calls <+: earlier ∧
    earlier ++ [.registryTargetExists target] <+: inspected targets calls ∧
    answers.registryTargetExists target earlier = .ok true
  was_deleted : ∀ target ∈ committed, ∃ earlier, inspected targets calls <+: earlier ∧
    earlier ++ [.commitRegistryDeletion target] <+: after ∧
    answers.commitRegistryDeletion target earlier = .ok ()
  was_gone : ∀ target ∈ skipped, ∃ earlier, calls <+: earlier ∧
    earlier ++ [.registryTargetExists target] <+: inspected targets calls ∧
    answers.registryTargetExists target earlier = .ok false
  was_thrown : ∀ failure ∈ result.failures, ∃ earlier thrown,
    failure = .ofThrown failure.target thrown ∧
    (earlier ++ [.registryTargetExists failure.target] <+: after ∧
        answers.registryTargetExists failure.target earlier = .error thrown ∨
      earlier ++ [.commitRegistryDeletion failure.target] <+: after ∧
        answers.commitRegistryDeletion failure.target earlier = .error thrown)

theorem commitDeletion_accounts {result : RegistryCommitResult} {after : List ServiceCall}
    (hreturned : commitDeletion answers targets calls = (.ok result, after)) :
    ∃ committed skipped,
      DeletionAccounted answers targets calls result after committed skipped := by
  rcases commitDeletion_cases answers targets calls with
    ⟨hnone, hrun⟩ | ⟨thrown, -, hrun⟩ | hrun
  · rw [hreturned] at hrun
    obtain ⟨hresult, rfl⟩ := Prod.mk.inj hrun
    obtain rfl := Except.ok.inj hresult
    have hperm : (existing answers targets calls ++
        itemsWith (isAnswer false) (probed answers targets calls) ++
        itemsWith isThrown (probed answers targets calls)).Perm
        ((probed answers targets calls).map Prod.fst) := perm_of_probed _
    rw [answered_fst, hnone, List.nil_append] at hperm
    refine ⟨[], itemsWith (isAnswer false) (probed answers targets calls), ?_, rfl, rfl, rfl,
      ?_, ?_, ?_, ?_⟩
    · simpa using hperm
    · intro target hmem
      cases hmem
    · intro target hmem
      cases hmem
    · exact fun target hmem => probed_as answers targets calls hmem
    · intro failure hmem
      obtain ⟨earlier, thrown, hrecord, hearlier, hthrown⟩ :=
        thrown_probe answers targets calls hmem
      exact ⟨earlier, thrown, hrecord, .inl ⟨hearlier, hthrown⟩⟩
  · rw [hreturned] at hrun
    cases (Prod.mk.inj hrun).1
  · rw [hreturned] at hrun
    obtain ⟨hresult, rfl⟩ := Prod.mk.inj hrun
    obtain rfl := Except.ok.inj hresult
    refine ⟨itemsWith succeeds (deleted answers targets calls),
      itemsWith (isAnswer false) (probed answers targets calls), ?_, rfl, rfl, rfl, ?_, ?_,
      ?_, ?_⟩
    · simpa using perm_of_deleted answers targets calls
    · exact fun target hmem => probed_as answers targets calls (itemsWith_subset hmem)
    · intro target hmem
      obtain ⟨earlier, hstart, hearlier, hanswer⟩ := exists_of_mem_itemsWith hmem
      refine ⟨earlier, (List.prefix_append _ _).trans hstart, hearlier, ?_⟩
      revert hanswer
      cases answers.commitRegistryDeletion target earlier with
      | error thrown => simp [succeeds]
      | ok value => exact fun _ => rfl
    · exact fun target hmem => probed_as answers targets calls hmem
    · intro failure hmem
      rcases List.mem_append.1 hmem with hprobe | hdelete
      · obtain ⟨earlier, thrown, hrecord, hearlier, hthrown⟩ :=
          thrown_probe answers targets calls hprobe
        refine ⟨earlier, thrown, hrecord, .inl ⟨hearlier.trans ?_, hthrown⟩⟩
        rw [List.append_assoc]
        exact List.prefix_append _ _
      · obtain ⟨earlier, thrown, -, hearlier, hanswer, hrecord⟩ :=
          exists_of_mem_thrownFailures hdelete
        exact ⟨earlier, thrown, hrecord, .inr ⟨hearlier, hanswer⟩⟩

end CommitDeletion

/-- The first target is there and its deletion is committed, the second one is gone. -/
theorem commitDeletion_accounts_for_two :
    ∃ committed skipped,
      DeletionAccounted (.willing [] .absent fun target => target.valueName.isEmpty)
        [⟨"key".toList, []⟩, ⟨"key".toList, "value".toList⟩] []
        { attempted := 2, committed := 1, skipped := 1 }
        [.registryTargetExists ⟨"key".toList, []⟩,
          .registryTargetExists ⟨"key".toList, "value".toList⟩, .readRegistryFilter,
          .commitRegistryDeletion ⟨"key".toList, []⟩]
        committed skipped :=
  commitDeletion_accounts _ _ _ rfl

end RegistryTreeCommitter

end UwfManager
