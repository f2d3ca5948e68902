import UwfManager.Enhanced.RegistryDeletion

/-!
# The service is removed in order

The keys of the service are planned for before the service is stopped, and their deletion is
committed while the barrier still holds the service.  The remnants are deleted only where
nothing was planned and there was no service.
-/

namespace UwfManager

open RegKey (RegistryCommitTarget)
open ServiceAction CallLog

/-! ## The calls of a deletion -/

/-- The calls that commit the deletions of a plan. -/
structure RemovalCalls (plan : List RegistryCommitTarget) (made : List ServiceCall) : Prop where
  kinds : ∀ call ∈ made, call = .openSession ∨ call = .readRegistryFilter ∨
    (∃ target, call = .registryTargetExists target) ∨
    ∃ target ∈ plan, call = .commitRegistryDeletion target
  asked : ∀ before target after, made = before ++ .commitRegistryDeletion target :: after →
    ∀ other ∈ plan, .registryTargetExists other ∈ before

namespace RemovalCalls

variable {plan : List RegistryCommitTarget} {made : List ServiceCall}

theorem nil : RemovalCalls plan [] where
  kinds := by simp
  asked := by simp

theorem open_cons (hmade : RemovalCalls plan made) :
    RemovalCalls plan (.openSession :: made) where
  kinds := by
    intro call hmem
    rcases List.mem_cons.1 hmem with rfl | hmem
    · exact .inl rfl
    · exact hmade.kinds call hmem
  asked := by
    intro before target after hsplit other hother
    have happend : [.openSession] ++ made =
        before ++ .commitRegistryDeletion target :: after := hsplit
    obtain ⟨between, rfl, hbetween⟩ := split_back happend (by simp)
    exact List.mem_append_right _ (hmade.asked between target after hbetween other hother)

/-- All targets of the plan are asked for, and then some of them are deleted. -/
theorem of_inspected {reads : List ServiceCall} {existing : List RegistryCommitTarget}
    (hreads : reads ⊆ [.readRegistryFilter]) (hexisting : existing ⊆ plan) :
    RemovalCalls plan (plan.map .registryTargetExists ++ reads ++
      existing.map .commitRegistryDeletion) where
  kinds := by
    intro call hmem
    rcases List.mem_append.1 hmem with hmem | hmem
    · rcases List.mem_append.1 hmem with hmem | hmem
      · obtain ⟨target, -, rfl⟩ := List.mem_map.1 hmem
        exact .inr (.inr (.inl ⟨target, rfl⟩))
      · exact .inr (.inl (List.mem_singleton.1 (hreads hmem)))
    · obtain ⟨target, htarget, rfl⟩ := List.mem_map.1 hmem
      exact .inr (.inr (.inr ⟨target, hexisting htarget, rfl⟩))
  asked := by
    intro before target after hsplit other hother
    have hnone : .commitRegistryDeletion target ∉ plan.map .registryTargetExists ++ reads := by
      intro hmem
      rcases List.mem_append.1 hmem with hmem | hmem
      · simp at hmem
      · simpa using hreads hmem
    obtain ⟨between, rfl, -⟩ := split_back hsplit hnone
    exact List.mem_append_left _ (List.mem_append_left _ (List.mem_map_of_mem hother))

end RemovalCalls

theorem RegistryTreeCommitter.commitDeletion_made {Status : Type}
    (answers : ServiceAnswers Status) (targets : List RegistryCommitTarget)
    (calls : List ServiceCall) :
    ∃ made, (commitDeletion answers targets calls).2 = calls ++ made ∧
      RemovalCalls targets made := by
  rcases commitDeletion_cases answers targets calls with
    ⟨-, hrun⟩ | ⟨thrown, -, hrun⟩ | hrun
  · refine ⟨_, ?_, RemovalCalls.of_inspected (List.nil_subset _) (List.nil_subset targets)⟩
    rw [hrun]
    simp
  · refine ⟨_, ?_, RemovalCalls.of_inspected (List.Subset.refl _) (List.nil_subset targets)⟩
    rw [hrun]
    simp
  · have hexisting : existing answers targets calls ⊆ targets := itemsWith_subset
    refine ⟨_, ?_, RemovalCalls.of_inspected (List.Subset.refl _) hexisting⟩
    rw [hrun]
    simp

/-! ## The calls of the steps -/

namespace EnhancedModeOperations

variable {Status : Type} (answers : ServiceAnswers Status) (capability : UwfCapability)

theorem persistRemoval_made (plan : List RegistryCommitTarget) (calls : List ServiceCall) :
    ∃ warning made, persistRemoval answers plan calls = (.ok warning, calls ++ made) ∧
      RemovalCalls plan made := by
  rw [persistRemoval]
  split_ifs
  · exact ⟨[], [], by simp [Pure.pure, StatefulAction.pure], .nil⟩
  · obtain ⟨warning, hcaught⟩ := caught_returns warningOf (do
      perform .openSession answers.openSession
      let result ← RegistryTreeCommitter.commitDeletion answers plan
      pure result.summarizeFailures) calls
    refine ⟨warning, ?_⟩
    rw [hcaught]
    cases hopened : answers.openSession calls with
    | error thrown =>
      rw [perform_bind_of_error hopened]
      exact ⟨[.openSession], rfl, RemovalCalls.nil.open_cons⟩
    | ok value =>
      rw [perform_bind_of_ok hopened]
      obtain ⟨made, hmade, hcalls⟩ := RegistryTreeCommitter.commitDeletion_made answers plan
        (calls ++ [.openSession])
      refine ⟨.openSession :: made, ?_, hcalls.open_cons⟩
      rw [StatefulAction.bind_pure_state, hmade]
      simp

/-- Where the plan comes from: nothing is planned where the filter is not there or not on. -/
theorem prepareRemovalPersistence_made (calls : List ServiceCall) :
    ∃ made, (prepareRemovalPersistence answers capability calls).2 = calls ++ made ∧
      (∀ call ∈ made, call = .openSession ∨ call = .readFilter ∨ call = .planRegistryDeletion) ∧
      ((prepareRemovalPersistence answers capability calls).1 = .ok none →
        .planRegistryDeletion ∉ made) ∧
      ∀ plan, (prepareRemovalPersistence answers capability calls).1 = .ok (some plan) →
        ∃ earlier, made = earlier ++ [.planRegistryDeletion] ∧
          answers.planRegistryDeletion (calls ++ earlier) = .ok plan := by
  rw [prepareRemovalPersistence]
  split_ifs
  · refine ⟨[], by simp [Pure.pure, StatefulAction.pure], by simp, by simp, ?_⟩
    intro plan hplan
    cases hplan
  · cases hopened : answers.openSession calls with
    | error thrown =>
      rw [perform_bind_of_error hopened]
      exact ⟨[.openSession], rfl, by simp, by simp, by simp⟩
    | ok value =>
      rw [perform_bind_of_ok hopened]
      cases hread : answers.currentEnabled (calls ++ [.openSession]) with
      | error thrown =>
        rw [perform_bind_of_error hread]
        exact ⟨[.openSession, .readFilter], by simp, by simp, by simp, by simp⟩
      | ok enabled =>
        rw [perform_bind_of_ok hread]
        cases enabled with
        | false =>
          refine ⟨[.openSession, .readFilter], ?_, by simp, by simp, ?_⟩
          · simp [Pure.pure, StatefulAction.pure]
          · intro plan hplan
            cases hplan
        | true =>
          have hlog : calls ++ [.openSession] ++ [.readFilter] =
              calls ++ [.openSession, .readFilter] := by simp
          simp only [Bool.not_true, Bool.false_eq_true, if_false, hlog]
          cases hplanned : answers.planRegistryDeletion (calls ++ [.openSession, .readFilter]) with
          | error thrown =>
            rw [perform_bind_of_error hplanned]
            refine ⟨[.openSession, .readFilter, .planRegistryDeletion], ?_, ?_, ?_, ?_⟩
            · simp
            · simp
            · intro hnone
              cases hnone
            · intro plan hplan
              cases hplan
          | ok targets =>
            rw [perform_bind_of_ok hplanned]
            refine ⟨[.openSession, .readFilter, .planRegistryDeletion], ?_, ?_, ?_, ?_⟩
            · simp [Pure.pure, StatefulAction.pure]
            · simp
            · intro hnone
              cases hnone
            · intro plan hplan
              obtain rfl := Option.some.inj (Except.ok.inj hplan)
              exact ⟨[.openSession, .readFilter], rfl, hplanned⟩

theorem persistPlan_made (plan : Option (List RegistryCommitTarget)) (calls : List ServiceCall) :
    ∃ warning made, persistPlan answers plan calls = (.ok warning, calls ++ made) ∧
      RemovalCalls (plan.getD []) made ∧ (plan = none → made = []) := by
  cases plan with
  | none =>
    refine ⟨[], [], ?_, .nil, fun _ => rfl⟩
    simp [persistPlan, Pure.pure, StatefulAction.pure]
  | some targets =>
    obtain ⟨warning, made, hrun, hmade⟩ := persistRemoval_made answers targets calls
    refine ⟨warning, made, hrun, hmade, ?_⟩
    intro hnone
    cases hnone

/-- The calls between the deletions and the last query. -/
def closingCalls (plan : Option (List RegistryCommitTarget)) (state : RemovalState) :
    List ServiceCall :=
  if state = .markedForDeletion then [.releaseBarrier]
  else if plan.isNone && state = .absent then [.deleteRegistryRemnants]
  else []

@[simp] theorem releaseBarrier_mem_closingCalls {plan : Option (List RegistryCommitTarget)}
    {state : RemovalState} :
    .releaseBarrier ∈ closingCalls plan state ↔ state = .markedForDeletion := by
  cases state <;> cases plan <;> simp [closingCalls]

@[simp] theorem deleteRegistryRemnants_mem_closingCalls
    {plan : Option (List RegistryCommitTarget)} {state : RemovalState} :
    .deleteRegistryRemnants ∈ closingCalls plan state ↔ plan = none ∧ state = .absent := by
  cases state <;> cases plan <;> simp [closingCalls]

theorem not_mem_closingCalls {plan : Option (List RegistryCommitTarget)}
    {state : RemovalState} :
    .stopAndMarkForDeletion ∉ closingCalls plan state ∧
      ∀ target, .commitRegistryDeletion target ∉ closingCalls plan state := by
  cases state <;> cases plan <;> simp [closingCalls]

theorem cleanRemnants_made (plan : Option (List RegistryCommitTarget)) (state : RemovalState)
    (warning : Text) (calls : List ServiceCall) :
    ∃ shown, cleanRemnants answers plan state warning calls =
      (.ok shown, calls ++ if plan.isNone && state = .absent then [.deleteRegistryRemnants]
        else []) := by
  rw [cleanRemnants]
  split_ifs
  · obtain ⟨shown, hcaught⟩ := caught_returns warningOf (do
      perform .deleteRegistryRemnants answers.deleteRegistryRemnants
      pure warning) calls
    refine ⟨shown, ?_⟩
    rw [hcaught]
    cases hdeleted : answers.deleteRegistryRemnants calls with
    | error thrown => rw [perform_bind_of_error hdeleted]
    | ok value =>
      rw [perform_bind_of_ok hdeleted]
      rfl
  · exact ⟨warning, by simp [Pure.pure, StatefulAction.pure]⟩

theorem closing_made (plan : Option (List RegistryCommitTarget)) (state : RemovalState)
    (warning : Text) (calls : List ServiceCall) :
    ((do
      releaseBarrier state
      let warning ← cleanRemnants answers plan state warning
      let status ← status answers
      pure { status := status, persistenceWarning := warning } :
        ServiceAction (EnhancedModeChangeResult Status)) calls).2 =
      calls ++ closingCalls plan state ++ [.query] := by
  have hreleased : releaseBarrier state calls =
      (.ok (), if state = .markedForDeletion then calls ++ [.releaseBarrier] else calls) := rfl
  rw [StatefulAction.bind_of_ok hreleased]
  obtain ⟨shown, hcleaned⟩ := cleanRemnants_made answers plan state warning
    (if state = .markedForDeletion then calls ++ [.releaseBarrier] else calls)
  rw [StatefulAction.bind_of_ok hcleaned, status]
  have hlog : (if state = .markedForDeletion then calls ++ [.releaseBarrier] else calls) ++
      (if plan.isNone && state = .absent then [.deleteRegistryRemnants] else []) =
      calls ++ closingCalls plan state := by
    cases state <;> simp [closingCalls]
  rw [hlog]
  cases hquery : answers.query (calls ++ closingCalls plan state) with
  | error thrown => rw [perform_bind_of_error hquery]
  | ok value =>
    rw [perform_bind_of_ok hquery]
    rfl

/-! ## The removal -/

variable {answers capability} {calls after : List ServiceCall}
  {plan : Option (List RegistryCommitTarget)}

/-- Nothing is stopped where the deletion of the keys could not be planned. -/
theorem disable_of_unplanned {thrown : Thrown}
    (hprepared : prepareRemovalPersistence answers capability calls = (.error thrown, after)) :
    disable answers capability calls = (.error thrown, after) := by
  rw [disable, StatefulAction.bind_of_error hprepared]

theorem disable_of_unmarked {thrown : Thrown}
    (hprepared : prepareRemovalPersistence answers capability calls = (.ok plan, after))
    (hstopped : answers.stopAndMarkForDeletion after = .error thrown) :
    disable answers capability calls = (.error thrown, after ++ [.stopAndMarkForDeletion]) := by
  rw [disable, StatefulAction.bind_of_ok hprepared, perform_bind_of_error hstopped]

theorem disable_of_marked {state : RemovalState}
    (hprepared : prepareRemovalPersistence answers capability calls = (.ok plan, after))
    (hstopped : answers.stopAndMarkForDeletion after = .ok state) :
    ∃ made, RemovalCalls (plan.getD []) made ∧ (plan = none → made = []) ∧
      (disable answers capability calls).2 =
        after ++ .stopAndMarkForDeletion :: (made ++ closingCalls plan state ++ [.query]) := by
  obtain ⟨warning, made, hrun, hmade, hnone⟩ := persistPlan_made answers plan
    (after ++ [.stopAndMarkForDeletion])
  refine ⟨made, hmade, hnone, ?_⟩
  rw [disable, StatefulAction.bind_of_ok hprepared, perform_bind_of_ok hstopped,
    StatefulAction.bind_of_ok hrun, closing_made]
  simp

/-- The order of the calls of a removal. -/
structure RemovalOrder (answers : ServiceAnswers Status) (capability : UwfCapability)
    (log : List ServiceCall) : Prop where
  /-- A service is stopped only when it is known what is to be deleted with it, and behind the
  calls that have found it out. -/
  stopped : ∀ before after, log = before ++ .stopAndMarkForDeletion :: after →
    ∃ plan, prepareRemovalPersistence answers capability [] = (.ok plan, before)
  /-- A deletion is committed of what was planned before the stop, after all targets were
  asked for, and under the barrier. -/
  deleted : ∀ before target after, log = before ++ .commitRegistryDeletion target :: after →
    (∃ planning plan, planning ++ [.planRegistryDeletion, .stopAndMarkForDeletion] <+: before ∧
      answers.planRegistryDeletion planning = .ok plan ∧ target ∈ plan ∧
      ∀ other ∈ plan, .registryTargetExists other ∈ before) ∧
    .releaseBarrier ∉ before ∧ .deleteRegistryRemnants ∉ log
  /-- The barrier is that of a service that was marked here, and only the query follows. -/
  released : ∀ before after, log = before ++ .releaseBarrier :: after →
    (∃ earlier, earlier ++ [.stopAndMarkForDeletion] <+: before ∧
      answers.stopAndMarkForDeletion earlier = .ok .markedForDeletion) ∧ after = [.query]
  /-- Remnants are those of a service that does not exist, and nothing was planned for it. -/
  remnants : ∀ before after, log = before ++ .deleteRegistryRemnants :: after →
    .planRegistryDeletion ∉ log ∧
    ∃ earlier, earlier ++ [.stopAndMarkForDeletion] <+: before ∧
      answers.stopAndMarkForDeletion earlier = .ok .absent
  /-- Once the service was stopped, its barrier is released and it is asked for its status,
  whatever became of the deletions. -/
  finished : ∀ before after state, log = before ++ .stopAndMarkForDeletion :: after →
    answers.stopAndMarkForDeletion before = .ok state →
    (state = .markedForDeletion → .releaseBarrier ∈ after) ∧
      ∃ between, after = between ++ [.query]

/-- The log of a removal that stops no service. -/
theorem RemovalOrder.of_unmarked {log : List ServiceCall}
    (hmade : ∀ call ∈ log, call = .openSession ∨ call = .readFilter ∨
      call = .planRegistryDeletion ∨ call = .stopAndMarkForDeletion)
    (hstopped : ∀ before after, log = before ++ .stopAndMarkForDeletion :: after →
      ∃ plan, prepareRemovalPersistence answers capability [] = (.ok plan, before))
    (hfailed : ∀ before after state, log = before ++ .stopAndMarkForDeletion :: after →
      answers.stopAndMarkForDeletion before ≠ .ok state) :
    RemovalOrder answers capability log where
  stopped := hstopped
  deleted := by
    intro before target after hsplit
    have hmem := hmade (.commitRegistryDeletion target) (by simp [hsplit])
    simp at hmem
  released := by
    intro before after hsplit
    have hmem := hmade .releaseBarrier (by simp [hsplit])
    simp at hmem
  remnants := by
    intro before after hsplit
    have hmem := hmade .deleteRegistryRemnants (by simp [hsplit])
    simp at hmem
  finished := by
    intro before after state hsplit hstate
    exact absurd hstate (hfailed before after state hsplit)

section OfMarked

variable {start made : List ServiceCall} {state : RemovalState}

/-- Deletions stand between the stop and the closing calls. -/
theorem split_deletion {before rest : List ServiceCall} {target : RegistryCommitTarget}
    (hstart : ∀ call ∈ start, call = .openSession ∨ call = .readFilter ∨
      call = .planRegistryDeletion)
    (hsplit : start ++ .stopAndMarkForDeletion :: (made ++ closingCalls plan state ++ [.query]) =
      before ++ .commitRegistryDeletion target :: rest) :
    ∃ asked later, before = start ++ [.stopAndMarkForDeletion] ++ asked ∧
      made = asked ++ .commitRegistryDeletion target :: later := by
  have hfront : .commitRegistryDeletion target ∉ start ++ [.stopAndMarkForDeletion] := by
    intro hmem
    rcases List.mem_append.1 hmem with hmem | hmem
    · simpa using hstart _ hmem
    · simp at hmem
  have hback : .commitRegistryDeletion target ∉ closingCalls plan state ++ [.query] := by
    simpa using not_mem_closingCalls.2 target
  have hparts : start ++ [.stopAndMarkForDeletion] ++
      (made ++ (closingCalls plan state ++ [.query])) =
      before ++ .commitRegistryDeletion target :: rest := by
    rw [← hsplit]
    simp
  obtain ⟨asked, hbefore, htail⟩ := split_back hparts hfront
  obtain ⟨later, hasked, -⟩ := split_front htail hback
  exact ⟨asked, later, hbefore, hasked⟩

theorem opening_not_closing
    (hstart : ∀ call ∈ start, call = .openSession ∨ call = .readFilter ∨
      call = .planRegistryDeletion) (hmade : RemovalCalls (plan.getD []) made) :
    .releaseBarrier ∉ start ++ .stopAndMarkForDeletion :: made ∧
      .deleteRegistryRemnants ∉ start ++ .stopAndMarkForDeletion :: made := by
  refine ⟨?_, ?_⟩
  · intro hmem
    rcases List.mem_append.1 hmem with hmem | hmem
    · simpa using hstart _ hmem
    · simpa using hmade.kinds _ (List.mem_of_ne_of_mem (by simp) hmem)
  · intro hmem
    rcases List.mem_append.1 hmem with hmem | hmem
    · simpa using hstart _ hmem
    · simpa using hmade.kinds _ (List.mem_of_ne_of_mem (by simp) hmem)

/-- There is one stop, behind the opening calls. -/
theorem split_stop {before rest : List ServiceCall}
    (hstart : ∀ call ∈ start, call = .openSession ∨ call = .readFilter ∨
      call = .planRegistryDeletion) (hmade : RemovalCalls (plan.getD []) made)
    (hsplit : start ++ .stopAndMarkForDeletion :: (made ++ closingCalls plan state ++ [.query]) =
      before ++ .stopAndMarkForDeletion :: rest) :
    before = start ∧ rest = made ++ closingCalls plan state ++ [.query] := by
  have hfront : .stopAndMarkForDeletion ∉ start := by
    intro hmem
    simpa using hstart _ hmem
  have hback : .stopAndMarkForDeletion ∉ made ++ closingCalls plan state ++ [.query] := by
    intro hmem
    rcases List.mem_append.1 hmem with hmem | hmem
    · rcases List.mem_append.1 hmem with hmem | hmem
      · simpa using hmade.kinds _ hmem
      · exact not_mem_closingCalls.1 hmem
    · simp at hmem
  exact split_unique hsplit hfront hback

/-- The log of a removal after the service was stopped. -/
theorem RemovalOrder.of_marked
    (hprepares : ∃ plan, prepareRemovalPersistence answers capability [] = (.ok plan, start))
    (hstart : ∀ call ∈ start, call = .openSession ∨ call = .readFilter ∨
      call = .planRegistryDeletion)
    (hunplanned : plan = none → .planRegistryDeletion ∉ start)
    (hplanned : ∀ targets, plan = some targets → ∃ planning,
      start = planning ++ [.planRegistryDeletion] ∧
        answers.planRegistryDeletion planning = .ok targets)
    (hstopped : answers.stopAndMarkForDeletion start = .ok state)
    (hmade : RemovalCalls (plan.getD []) made) (hnone : plan = none → made = []) :
    RemovalOrder answers capability
      (start ++ .stopAndMarkForDeletion :: (made ++ closingCalls plan state ++ [.query])) where
  stopped := by
    intro before rest hsplit
    obtain ⟨rfl, -⟩ := split_stop hstart hmade hsplit
    exact hprepares
  deleted := by
    intro before target rest hsplit
    obtain ⟨asked, later, rfl, hasked⟩ := split_deletion hstart hsplit
    obtain ⟨targets, rfl⟩ : ∃ targets, plan = some targets := by
      cases plan with
      | none => simp [hnone rfl] at hasked
      | some targets => exact ⟨targets, rfl⟩
    obtain ⟨planning, hplanning, hplan⟩ := hplanned targets rfl
    have htarget : target ∈ targets := by
      simpa using hmade.kinds (.commitRegistryDeletion target) (by simp [hasked])
    refine ⟨⟨planning, targets, ?_, hplan, htarget, ?_⟩, ?_, ?_⟩
    · rw [hplanning]
      simp
    · intro other hother
      exact List.mem_append_right _ (hmade.asked asked target later hasked other hother)
    · intro hmem
      refine (opening_not_closing hstart hmade).1 ?_
      rw [hasked]
      simp only [List.mem_append, List.mem_cons] at hmem ⊢
      tauto
    · intro hmem
      rw [List.append_assoc, ← List.cons_append, ← List.append_assoc] at hmem
      rcases List.mem_append.1 hmem with hmem | hmem
      · exact (opening_not_closing hstart hmade).2 hmem
      · cases state <;> simp [closingCalls] at hmem
  released := by
    intro before rest hsplit
    have hlog : start ++ .stopAndMarkForDeletion :: made ++ (closingCalls plan state ++ [.query]) =
        before ++ .releaseBarrier :: rest := by
      rw [← hsplit]
      simp
    have hopening := (opening_not_closing hstart hmade).1
    obtain ⟨between, -, hclosing⟩ := split_back hlog hopening
    have hmem : .releaseBarrier ∈ closingCalls plan state ++ [.query] := by
      rw [hclosing]
      simp
    obtain rfl : state = .markedForDeletion := by simpa using hmem
    obtain ⟨rfl, rfl⟩ := split_unique hlog hopening (by simp)
    exact ⟨⟨start, by simp, hstopped⟩, rfl⟩
  remnants := by
    intro before rest hsplit
    have hlog : start ++ .stopAndMarkForDeletion :: made ++ (closingCalls plan state ++ [.query]) =
        before ++ .deleteRegistryRemnants :: rest := by
      rw [← hsplit]
      simp
    have hopening := (opening_not_closing hstart hmade).2
    obtain ⟨between, hbefore, hclosing⟩ := split_back hlog hopening
    have hmem : .deleteRegistryRemnants ∈ closingCalls plan state ++ [.query] := by
      rw [hclosing]
      simp
    obtain ⟨rfl, rfl⟩ : plan = none ∧ state = .absent := by simpa using hmem
    rw [hnone rfl]
    refine ⟨?_, start, ?_, hstopped⟩
    · simpa [closingCalls] using hunplanned rfl
    · rw [hbefore]
      simp
  finished := by
    intro before rest reached hsplit hreached
    obtain ⟨rfl, rfl⟩ := split_stop hstart hmade hsplit
    obtain rfl := Except.ok.inj (hstopped.symm.trans hreached)
    refine ⟨?_, made ++ closingCalls plan state, rfl⟩
    rintro rfl
    simp

end OfMarked

/-- Whatever the control and the filter answer, a removal keeps the order. -/
theorem disable_in_order (answers : ServiceAnswers Status) (capability : UwfCapability) :
    RemovalOrder answers capability (disable answers capability []).2 := by
  obtain ⟨start, hstart, hkinds, hunplanned, hplanned⟩ :=
    prepareRemovalPersistence_made answers capability []
  rw [List.nil_append] at hstart
  have hunstopped : .stopAndMarkForDeletion ∉ start := by
    intro hmem
    simpa using hkinds _ hmem
  rcases hprepared : prepareRemovalPersistence answers capability [] with ⟨thrown | plan, after⟩
  · obtain rfl : after = start := by simpa [hprepared] using hstart
    rw [disable_of_unplanned hprepared]
    have hnever : ∀ before rest, after ≠ before ++ .stopAndMarkForDeletion :: rest := by
      rintro before rest rfl
      exact hunstopped (by simp)
    refine RemovalOrder.of_unmarked ?_ ?_ ?_
    · intro call hmem
      rcases hkinds call hmem with hopen | hread | hplan
      · exact .inl hopen
      · exact .inr (.inl hread)
      · exact .inr (.inr (.inl hplan))
    · exact fun before rest hsplit => absurd hsplit (hnever before rest)
    · exact fun before rest state hsplit => absurd hsplit (hnever before rest)
  · obtain rfl : after = start := by simpa [hprepared] using hstart
    cases hstopped : answers.stopAndMarkForDeletion after with
    | error thrown =>
      rw [disable_of_unmarked hprepared hstopped]
      refine RemovalOrder.of_unmarked ?_ ?_ ?_
      · intro call hmem
        rcases List.mem_append.1 hmem with hmem | hmem
        · rcases hkinds call hmem with hopen | hread | hplan
          · exact .inl hopen
          · exact .inr (.inl hread)
          · exact .inr (.inr (.inl hplan))
        · exact .inr (.inr (.inr (List.mem_singleton.1 hmem)))
      · intro before rest hsplit
        obtain ⟨rfl, -⟩ := split_unique hsplit hunstopped List.not_mem_nil
        exact ⟨plan, hprepared⟩
      · intro before rest state hsplit
        obtain ⟨rfl, -⟩ := split_unique hsplit hunstopped List.not_mem_nil
        rw [hstopped]
        simp
    | ok state =>
      obtain ⟨made, hmade, hnone, hlog⟩ := disable_of_marked hprepared hstopped
      rw [hlog]
      refine RemovalOrder.of_marked ⟨plan, hprepared⟩ hkinds ?_ ?_ hstopped hmade hnone
      · rintro rfl
        exact hunplanned (by rw [hprepared])
      · rintro targets rfl
        exact hplanned targets (by rw [hprepared])

end EnhancedModeOperations

end UwfManager
