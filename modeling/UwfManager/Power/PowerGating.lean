import UwfManager.Power.PowerCoordinator

/-!
# What a power action is allowed to do

Every run of the coordinator calls the provider once at most for an action it
accepted, after a confirmation that allows it, and leaves neither a lease nor the
flag behind.
-/

namespace UwfManager

/-! ## The provider call -/

section Invocation

variable (control : PreshutdownCommitControl) (answers : PowerAnswers) (action : PowerAction)

/-- The numbers of the power calls among the calls. -/
def powerCalls (calls : List PowerCall) : List PowerAction :=
  calls.filterMap fun call =>
    match call with
    | .power action => some action
    | _ => none

/-- The provider is called once at most, and with the action that was asked for. -/
theorem powerCalls_invokePowerAction :
    powerCalls (invokePowerAction control answers action).calls = [] ∨
      powerCalls (invokePowerAction control answers action).calls = [action] := by
  rw [invokePowerAction]
  split
  · exact Or.inl rfl
  · dsimp only
    split
    · left
      cases control.markHandled <;> rfl
    · split
      · right
        cases control.markHandled <;> rfl
      · right
        split_ifs <;> rfl

/-- A token was enabled before the call and the call failed. -/
def TokenLeft (control : PreshutdownCommitControl) (answers : PowerAnswers) : Prop :=
  (∃ skipResult, markHandledResult control answers = .ok skipResult ∧
    skipResult ≠ .notApplicable) ∧ ∃ thrown, answers.power = .error thrown

/-- When the provider fails after a token was enabled, the token is revoked. -/
theorem markRequired_of_tokenLeft (hleft : TokenLeft control answers)
    (hcalled : powerCalls (invokePowerAction control answers action).calls ≠ []) :
    (invokePowerAction control answers action).calls.getLast? = some .markRequired := by
  obtain ⟨⟨skipResult, hmarked, hskip⟩, thrown, hpower⟩ := hleft
  have hhandled : control.markHandled = true := by
    by_contra hunset
    rw [markHandledResult, if_neg hunset] at hmarked
    exact hskip (Except.ok.inj hmarked).symm
  have hrequired : control.markRequired = true := control.paired ▸ hhandled
  revert hcalled
  rw [invokePowerAction]
  split
  · exact fun hcalled => absurd rfl hcalled
  · intro _
    rw [hmarked, hpower]
    dsimp only
    rw [if_pos ⟨hskip, hrequired⟩]
    cases control.markHandled <;> rfl

end Invocation

/-! ## The final staging result -/

namespace StagingRun

variable {run : StagingRun}

/-- A task exists only for a list that was read, and a complete result is that of an
empty list or of a task that has finished. -/
structure Final (run : StagingRun) : Prop where
  loaded : run.stagingTask ≠ none → run.stagedEntries ≠ none
  complete : ∀ result, run.stagingResult = some result → result.completed = true →
    run.stagedEntries = some [] ∨
      ∃ task final detail, run.stagingTask = some task ∧ task.getResult = .ok final ∧
        result = toApplicationCommandResult final detail

theorem final_initial : Final {} where
  loaded := fun htask => absurd rfl htask
  complete := fun _ hresult => nomatch hresult

theorem Final.fail (hfinal : run.Final) (detail : Text) : (run.fail detail).Final where
  loaded := hfinal.loaded
  complete := by
    intro result hresult hcompleted
    obtain rfl := Option.some.inj hresult
    simp [ApplicationCommandResult.infrastructureFailure, ApplicationCommandResult.completed]
      at hcompleted

/-- The result of a task that has finished is taken over. -/
theorem Final.take (hfinal : run.Final) {task : FileStagingTask} {final : FileStagingCommitResult}
    (htask : run.stagingTask = some task) (hget : task.getResult = .ok final) (detail : Text) :
    Final { run with
      stagingResult := some (toApplicationCommandResult final detail)
      stagingCommitResult := some final } where
  loaded := hfinal.loaded
  complete := by
    intro result hsome _
    obtain rfl := Option.some.inj hsome
    exact Or.inr ⟨task, final, detail, htask, hget, rfl⟩

/-- Another task in the place of one that has not finished. -/
theorem Final.replace (hfinal : run.Final) {task after : FileStagingTask}
    (htask : run.stagingTask = some task) (hkept : task.finished = true → after = task) :
    Final { run with stagingTask := some after } where
  loaded := fun _ => hfinal.loaded (by rw [htask]; exact Option.some_ne_none task)
  complete := by
    intro result hresult hcompleted
    rcases hfinal.complete result hresult hcompleted with
      hempty | ⟨finished, final, detail, hsame, hget, heq⟩
    · exact Or.inl hempty
    · obtain rfl := Option.some.inj (htask.symm.trans hsame)
      have hfinished := (FileStagingTask.getResult_eq_ok_iff.1 hget).1
      rw [hkept hfinished]
      exact Or.inr ⟨task, final, detail, rfl, hget, heq⟩

theorem final_conclude {task after : FileStagingTask} (hfinal : run.Final)
    (htask : run.stagingTask = some task) (hkept : task.finished = true → after = task)
    (progress : FileStagingTaskProgress) (answers : AdvanceAnswers) :
    (run.conclude after progress answers).2.Final := by
  have hreplaced := hfinal.replace htask hkept
  rw [conclude]
  cases hresult : after.getResult with
  | error thrown => exact hreplaced.fail _
  | ok final =>
      dsimp only
      split_ifs with hsucceeded
      · exact hreplaced.take rfl hresult []
      · cases answers.describe with
        | error thrown => exact hreplaced.fail _
        | ok detail =>
            have htaken := hreplaced.take rfl hresult detail
            dsimp only
            cases answers.describeAgain with
            | error thrown => exact htaken.fail _
            | ok details => exact htaken

theorem final_advanceStaging (hfinal : run.Final) (answers : AdvanceAnswers) :
    (run.advanceStaging answers).2.Final := by
  rw [advanceStaging]
  split
  · exact hfinal
  · split
    · exact hfinal.fail _
    · next task htask =>
        split_ifs with hprepared hfinished
        · exact hfinal.fail _
        · exact final_conclude hfinal htask (fun _ => rfl) _ answers
        · have hreplaced : ∀ after : FileStagingTask,
              Final { run with stagingTask := some after } :=
            fun after => hfinal.replace htask fun hdone => absurd hdone hfinished
          rcases task.advance answers.work with ⟨thrown | progress, after⟩
          · exact (hreplaced after).fail _
          · dsimp only
            split_ifs
            · exact final_conclude hfinal htask (fun hdone => absurd hdone hfinished) progress
                answers
            · exact hreplaced after

theorem final_pollTask (hfinal : run.Final) (poll : PollAnswers) (advance : AdvanceAnswers) :
    (run.pollTask poll advance).2.Final := by
  rw [pollTask]
  split
  · exact hfinal.fail _
  · next task htask =>
      have hpolled := hfinal.replace htask
        fun hfinished => FileStagingTask.pollPreparation_of_finished hfinished poll.work
      revert hpolled
      rcases task.pollPreparation poll.work with ⟨thrown | _ | _, after⟩
      · exact fun hpolled => hpolled.fail _
      · exact fun hpolled => hpolled
      · intro hpolled
        dsimp only
        split
        · exact hpolled.fail _
        · split_ifs
          · exact final_advanceStaging hpolled advance
          · exact final_advanceStaging hpolled advance
          · exact hpolled

theorem final_pollStagingPreparation (hfinal : run.Final) (capability : UwfCapability)
    (poll : PollAnswers) (advance : AdvanceAnswers) :
    (run.pollStagingPreparation capability poll advance).2.Final := by
  rw [pollStagingPreparation]
  split
  · exact hfinal
  · split
    · exact final_pollTask hfinal poll advance
    · next hunread =>
        -- Nothing was read so far, so there is no complete result either.
        have hincomplete : ∀ result, run.stagingResult = some result → result.completed ≠ true := by
          intro result hresult hcompleted
          rcases hfinal.complete result hresult hcompleted with hempty | ⟨task, _, _, htask, -⟩
          · rw [hunread] at hempty
            exact absurd hempty (by simp)
          · exact hfinal.loaded (by rw [htask]; exact Option.some_ne_none task) hunread
        split
        · exact hfinal.fail _
        · next entries hload =>
            have hloaded : ∀ task : Option FileStagingTask,
                Final { run with stagedEntries := some entries, stagingTask := task } :=
              fun task =>
                { loaded := fun _ => Option.some_ne_none entries
                  complete := fun result hresult hcompleted =>
                    absurd hcompleted (hincomplete result hresult) }
            split_ifs with hempty
            · exact
                { loaded := fun _ => Option.some_ne_none entries
                  complete := fun _ _ _ => Or.inl (by rw [List.isEmpty_iff.1 hempty]) }
            · split
              · exact (hloaded run.stagingTask).fail _
              · exact final_pollTask (hloaded _) poll advance

end StagingRun

/-! ## What the dialog has to answer -/

/-- A confirmation of a successful staging, or the choice to go on after recorded
failures. -/
def Accepts (outcome : PowerActionDialogOutcome) (result : ApplicationCommandResult) : Prop :=
  outcome = .confirmed ∧ result.outcome = .succeeded ∨
    outcome = .continuedAfterStagingFailure ∧ result.outcome = .completedWithFailures ∧
      result.failedFiles ≠ 0

/-- What has to be true of an action that reached the provider. -/
def PowerRecord.Allowed (record : PowerRecord) : Prop :=
  record.outcome = .directConfirmed ∨
    match record.basis with
    | .direct => False
    | .reserved run => run.Final ∧ ∃ result, run.stagingResult = some result ∧
        Accepts record.outcome result
    | .completed result => Accepts record.outcome result.command

/-- The outcomes that the callbacks of the dialog pass on to the checks. -/
theorem confirmed_or_continued {outcome : PowerActionDialogOutcome}
    (hcanceled : outcome = .canceled → False)
    (hcanceledAfter : outcome = .canceledAfterStagingFailure → False)
    (hdirect : outcome = .directConfirmed → False) :
    outcome = .confirmed ∨ outcome = .continuedAfterStagingFailure := by
  cases outcome with
  | canceled => exact absurd rfl hcanceled
  | canceledAfterStagingFailure => exact absurd rfl hcanceledAfter
  | directConfirmed => exact absurd rfl hdirect
  | confirmed => exact Or.inl rfl
  | continuedAfterStagingFailure => exact Or.inr rfl

theorem accepts_of_checkContinuation {stagingResult : Option ApplicationCommandResult}
    {outcome : PowerActionDialogOutcome}
    (houtcome : outcome = .confirmed ∨ outcome = .continuedAfterStagingFailure)
    (hcheck : checkContinuation stagingResult outcome = .ok ()) :
    ∃ result, stagingResult = some result ∧ Accepts outcome result := by
  cases stagingResult with
  | none => rcases houtcome with rfl | rfl <;> cases hcheck
  | some result =>
      refine ⟨result, rfl, ?_⟩
      rcases houtcome with rfl | rfl
      · left
        change requireFinalResult (some result) false = .ok () at hcheck
        rw [requireFinalResult] at hcheck
        split_ifs at hcheck with hunsuccessful
        by_contra hrefused
        exact hunsuccessful ⟨fun hsucceeded => hrefused ⟨rfl, hsucceeded⟩, rfl⟩
      · right
        rw [checkContinuation, approveContinuation] at hcheck
        by_cases hunrecorded : result.outcome ≠ .completedWithFailures ∨ result.failedFiles = 0
        · rw [if_pos hunrecorded] at hcheck
          cases hcheck
        · rw [not_or, not_not] at hunrecorded
          exact ⟨rfl, hunrecorded⟩

namespace PowerPhase

/-- The lease in the hands of the action. -/
def lease? : PowerPhase → Option ℕ
  | batchPosted lease _ => some lease
  | confirmingReserved lease _ => some lease
  | confirmingCompleted lease _ => some lease
  | warning (.reserved lease _) => some lease
  | warning (.completed lease _ _) => some lease
  | _ => none

/-- The provider has not been called for the action. -/
def asking : PowerPhase → Bool
  | idle => false
  | warning _ => false
  | _ => true

/-- What the dialog that is open was opened for. -/
def basis? : PowerPhase → Option PowerBasis
  | directConfirming => some .direct
  | confirmingReserved _ run => some (.reserved run)
  | confirmingCompleted _ result => some (.completed result)
  | _ => none

/-- The event is the one the phase waits for. -/
def answeredBy : PowerPhase → PowerEvent → Bool
  | directConfirming, .confirmReturns _ _ => true
  | reserving, .reserveReturns _ => true
  | awaitingBatch, .batchCompleted _ _ => true
  | batchPosted _ _, .timerFires => true
  | confirmingReserved _ _, .confirmReturns _ _ => true
  | confirmingCompleted _ _, .confirmReturns _ _ => true
  | warning _, .warningReturns _ => true
  | _, _ => false

/-- How many answers are left at most. -/
def rank : PowerPhase → ℕ
  | idle => 0
  | warning (.reserved _ _) => 2
  | warning _ => 1
  | confirmingCompleted _ _ => 2
  | directConfirming => 2
  | confirmingReserved _ _ => 3
  | batchPosted _ _ => 3
  | awaitingBatch => 4
  | reserving => 5

end PowerPhase

namespace PowerWorld

variable {control : PreshutdownCommitControl} {capability : UwfCapability} {world : PowerWorld}

/-! ## The invariant -/

structure Sound (control : PreshutdownCommitControl) (world : PowerWorld) : Prop where
  active : world.actionActive = true ↔ world.phase ≠ .idle
  leases : (world.phase.lease?.toList ++ world.settled.map Prod.fst).Perm
    (List.range world.leases)
  numbers : world.records.Pairwise fun earlier later => earlier.number < later.number
  accepted : ∀ record ∈ world.records, record.number ≤ world.accepted
  records : ∀ record ∈ world.records, record.Allowed ∧
    record.invocation = invokePowerAction control record.answers record.action
  run : ∀ lease run, world.phase = .confirmingReserved lease run → run.Final

/-- While the action asks, no call was made for it. -/
def Fresh (world : PowerWorld) : Prop :=
  world.terminated = false → world.phase.asking = true →
    ∀ record ∈ world.records, record.number < world.accepted

theorem sound_initial : Sound control {} where
  active := by simp
  leases := List.Perm.refl _
  numbers := List.Pairwise.nil
  accepted := by simp
  records := by simp
  run := fun _ _ hphase => nomatch hphase

theorem fresh_of_not_asking (hasking : world.phase.asking = false) : world.Fresh :=
  fun _ htrue => absurd htrue (by simp [hasking])

/-! ## Ends and warnings -/

theorem Sound.release (hsound : world.Sound control) (hlease : world.phase.lease? = none) :
    world.release.Sound control :=
  { hsound with
    active := ⟨fun hfalse => (nomatch hfalse), fun hphase => absurd rfl hphase⟩
    leases := by
      have hleases := hsound.leases
      rw [hlease] at hleases
      exact hleases
    run := fun _ _ hphase => nomatch hphase }

/-- The lease of the phase is settled, and the phase left behind has none. -/
theorem Sound.settled (hsound : world.Sound control) {lease : ℕ}
    (hlease : world.phase.lease? = some lease) (how : LeaseEnd) :
    ((world.settle lease how).settled.map Prod.fst).Perm (List.range world.leases) := by
  have hleases := hsound.leases
  rw [hlease] at hleases
  refine List.Perm.trans ?_ hleases
  rw [settle, List.map_append]
  exact List.perm_append_comm

theorem Sound.close (hsound : world.Sound control) {lease : ℕ}
    (hlease : world.phase.lease? = some lease) (how : LeaseEnd) :
    (world.settle lease how).release.Sound control :=
  { hsound with
    active := ⟨fun hfalse => (nomatch hfalse), fun hphase => absurd rfl hphase⟩
    leases := hsound.settled hlease how
    run := fun _ _ hphase => nomatch hphase }

theorem closeReserved_eq (lease : ℕ) (run : StagingRun) :
    ∃ how, world.closeReserved lease run = world.settle lease how := by
  rw [closeReserved]
  cases run.stagingResult with
  | none => exact ⟨_, rfl⟩
  | some result => exact ⟨_, rfl⟩

theorem Sound.closeReserved (hsound : world.Sound control) {lease : ℕ}
    (hlease : world.phase.lease? = some lease) (run : StagingRun) :
    (world.closeReserved lease run).release.Sound control := by
  obtain ⟨how, hclose⟩ := @closeReserved_eq world lease run
  rw [hclose]
  exact hsound.close hlease how

theorem Sound.warn (hsound : world.Sound control) (hphase : world.phase ≠ .idle)
    {after : AfterWarning} (hlease : (PowerPhase.warning after).lease? = world.phase.lease?)
    (thrown : Thrown) (mode : PowerActionDialogMode) :
    (world.warn thrown mode after).Sound control :=
  { hsound with
    active := ⟨fun _ hwarning => (nomatch hwarning), fun _ => hsound.active.2 hphase⟩
    leases := by
      change ((PowerPhase.warning after).lease?.toList ++ _).Perm _
      rw [hlease]
      exact hsound.leases
    run := fun _ _ hwarning => nomatch hwarning }

/-! ## The call -/

theorem Sound.record (hsound : world.Sound control)
    (hfresh : ∀ record ∈ world.records, record.number < world.accepted)
    {outcome : PowerActionDialogOutcome} {basis : PowerBasis} {answers : PowerAnswers}
    (hallowed : PowerRecord.Allowed ⟨world.accepted, world.action, outcome, basis, answers,
      invokePowerAction control answers world.action⟩) :
    (world.record outcome basis answers
      (invokePowerAction control answers world.action)).Sound control :=
  { hsound with
    numbers := by
      apply List.pairwise_append.2
      refine ⟨hsound.numbers, List.pairwise_singleton _ _, ?_⟩
      intro earlier hearlier later hlater
      rw [List.mem_singleton.1 hlater]
      exact hfresh earlier hearlier
    accepted := by
      intro record hrecord
      rcases List.mem_append.1 hrecord with hearlier | hlast
      · exact hsound.accepted record hearlier
      · rw [List.mem_singleton.1 hlast]
        exact le_refl _
    records := by
      intro record hrecord
      rcases List.mem_append.1 hrecord with hearlier | hlast
      · exact hsound.records record hearlier
      · rw [List.mem_singleton.1 hlast]
        exact ⟨hallowed, rfl⟩ }

/-- The handler and the rest after the call find the phase as it was. -/
theorem sound_invoke (hsound : world.Sound control)
    (hfresh : ∀ record ∈ world.records, record.number < world.accepted)
    {outcome : PowerActionDialogOutcome} {basis : PowerBasis} {answers : PowerAnswers}
    (hallowed : PowerRecord.Allowed ⟨world.accepted, world.action, outcome, basis, answers,
      invokePowerAction control answers world.action⟩)
    {failed : Thrown → PowerWorld → PowerWorld} {done : PowerWorld → PowerWorld}
    (hfailed : ∀ thrown called, Sound control called → called.phase = world.phase →
      (failed thrown called).Sound control ∧ (failed thrown called).Fresh)
    (hdone : ∀ called, Sound control called → called.phase = world.phase →
      (done called).Sound control ∧ (done called).Fresh) :
    (world.invoke control outcome basis answers failed done).Sound control ∧
      (world.invoke control outcome basis answers failed done).Fresh := by
  have hcalled := hsound.record hfresh hallowed
  rw [invoke]
  split_ifs with hterminated
  · refine ⟨hcalled, fun hrunning => ?_⟩
    have hfalse : (invokePowerAction control answers world.action).terminated = false := hrunning
    exact absurd hterminated (by simp [hfalse])
  · split
    · exact hfailed _ _ hcalled rfl
    · exact hdone _ hcalled rfl

/-! ## Steps -/

theorem fresh_release : world.release.Fresh := fresh_of_not_asking rfl

theorem fresh_warn (thrown : Thrown) (mode : PowerActionDialogMode) (after : AfterWarning) :
    (world.warn thrown mode after).Fresh := fresh_of_not_asking rfl

theorem sound_directConfirmed (hsound : world.Sound control)
    (hphase : world.phase = .directConfirming)
    (hfresh : ∀ record ∈ world.records, record.number < world.accepted)
    (outcome : Except Thrown PowerActionDialogOutcome) (answers : PowerAnswers) :
    (world.directConfirmed control outcome answers).Sound control ∧
      (world.directConfirmed control outcome answers).Fresh := by
  have hwarn : ∀ called : PowerWorld, called.Sound control → called.phase = world.phase →
      ∀ thrown, (called.warn thrown .direct .release).Sound control := by
    intro called hcalled hsame thrown
    rw [hphase] at hsame
    exact hcalled.warn (by simp [hsame]) (by rw [hsame]; rfl) thrown .direct
  have hrelease : ∀ called : PowerWorld, called.Sound control → called.phase = world.phase →
      called.release.Sound control := by
    intro called hcalled hsame
    rw [hphase] at hsame
    exact hcalled.release (by rw [hsame]; rfl)
  unfold directConfirmed
  split
  · exact ⟨hwarn world hsound rfl _, fresh_warn _ _ _⟩
  · exact ⟨hrelease world hsound rfl, fresh_release⟩
  · exact sound_invoke hsound hfresh (Or.inl rfl)
      (fun thrown called hcalled hsame => ⟨hwarn called hcalled hsame thrown, fresh_warn _ _ _⟩)
      (fun called hcalled hsame => ⟨hrelease called hcalled hsame, fresh_release⟩)
  · exact ⟨hwarn world hsound rfl _, fresh_warn _ _ _⟩

theorem sound_reservedConfirmed (hsound : world.Sound control) {lease : ℕ} {run : StagingRun}
    (hphase : world.phase = .confirmingReserved lease run)
    (hfresh : ∀ record ∈ world.records, record.number < world.accepted)
    (outcome : Except Thrown PowerActionDialogOutcome) (answers : PowerAnswers) :
    (world.reservedConfirmed control lease run outcome answers).Sound control ∧
      (world.reservedConfirmed control lease run outcome answers).Fresh := by
  have hwarn : ∀ called : PowerWorld, called.Sound control → called.phase = world.phase →
      ∀ thrown mode, (called.warn thrown mode (.reserved lease run)).Sound control := by
    intro called hcalled hsame thrown mode
    rw [hphase] at hsame
    exact hcalled.warn (by simp [hsame]) (by rw [hsame]; rfl) thrown mode
  have hlease : ∀ called : PowerWorld, called.phase = world.phase →
      called.phase.lease? = some lease := by
    intro called hsame
    rw [hsame, hphase]
    rfl
  have hclose : ∀ called : PowerWorld, called.Sound control → called.phase = world.phase →
      (called.closeReserved lease run).release.Sound control :=
    fun called hcalled hsame => hcalled.closeReserved (hlease called hsame) run
  unfold reservedConfirmed
  split
  · exact ⟨hwarn world hsound rfl _ _, fresh_warn _ _ _⟩
  · exact ⟨hclose world hsound rfl, fresh_release⟩
  · exact ⟨hclose world hsound rfl, fresh_release⟩
  · apply sound_invoke hsound hfresh (Or.inl rfl)
    · exact fun thrown called hcalled hsame =>
        ⟨hwarn called hcalled hsame thrown .direct, fresh_warn _ _ _⟩
    · intro called hcalled hsame
      split_ifs
      · exact ⟨hcalled.close (hlease called hsame) _, fresh_release⟩
      · exact ⟨hclose called hcalled hsame, fresh_release⟩
  · next outcome hcanceled hcanceledAfter hdirect =>
      split
      · exact ⟨hwarn world hsound rfl _ _, fresh_warn _ _ _⟩
      · next hcheck =>
          have houtcome := confirmed_or_continued hcanceled hcanceledAfter hdirect
          have hallowed : PowerRecord.Allowed ⟨world.accepted, world.action, outcome,
              .reserved run, answers, invokePowerAction control answers world.action⟩ :=
            Or.inr ⟨hsound.run lease run hphase, accepts_of_checkContinuation houtcome hcheck⟩
          apply sound_invoke hsound hfresh hallowed
          · exact fun thrown called hcalled hsame =>
              ⟨hwarn called hcalled hsame thrown .safe, fresh_warn _ _ _⟩
          · exact fun called hcalled hsame => ⟨hclose called hcalled hsame, fresh_release⟩

theorem sound_completedConfirmed (hsound : world.Sound control) {lease : ℕ}
    {result : FileStagingBatchResult} (hphase : world.phase = .confirmingCompleted lease result)
    (hfresh : ∀ record ∈ world.records, record.number < world.accepted)
    (outcome : Except Thrown PowerActionDialogOutcome) (answers : PowerAnswers) :
    (world.completedConfirmed control lease result outcome answers).Sound control ∧
      (world.completedConfirmed control lease result outcome answers).Fresh := by
  have hwarn : ∀ called : PowerWorld, called.Sound control → called.phase = world.phase →
      ∀ thrown mode complete,
        (called.warn thrown mode (.completed lease result complete)).Sound control := by
    intro called hcalled hsame thrown mode complete
    rw [hphase] at hsame
    exact hcalled.warn (by simp [hsame]) (by rw [hsame]; rfl) thrown mode
  have hclose : ∀ called : PowerWorld, called.Sound control → called.phase = world.phase →
      ∀ complete, (called.closeCompleted lease result complete).release.Sound control := by
    intro called hcalled hsame complete
    have hlease : called.phase.lease? = some lease := by
      rw [hsame, hphase]
      rfl
    exact hcalled.close hlease _
  unfold completedConfirmed
  split
  · exact ⟨hwarn world hsound rfl _ _ _, fresh_warn _ _ _⟩
  · exact ⟨hclose world hsound rfl _, fresh_release⟩
  · exact ⟨hclose world hsound rfl _, fresh_release⟩
  · exact sound_invoke hsound hfresh (Or.inl rfl)
      (fun thrown called hcalled hsame =>
        ⟨hwarn called hcalled hsame thrown .direct true, fresh_warn _ _ _⟩)
      (fun called hcalled hsame => ⟨hclose called hcalled hsame true, fresh_release⟩)
  · next outcome hcanceled hcanceledAfter hdirect =>
      split
      · exact ⟨hwarn world hsound rfl _ _ _, fresh_warn _ _ _⟩
      · next hcheck =>
          have houtcome := confirmed_or_continued hcanceled hcanceledAfter hdirect
          have haccepts : Accepts outcome result.command := by
            obtain ⟨accepted, hsome, haccepts⟩ := accepts_of_checkContinuation houtcome hcheck
            rwa [Option.some.inj hsome]
          exact sound_invoke hsound hfresh (Or.inr haccepts)
            (fun thrown called hcalled hsame =>
              ⟨hwarn called hcalled hsame thrown .safe true, fresh_warn _ _ _⟩)
            (fun called hcalled hsame => ⟨hclose called hcalled hsame true, fresh_release⟩)

theorem sound_warned (hsound : world.Sound control) {after : AfterWarning}
    (hphase : world.phase = .warning after) (thrown : Option Thrown) :
    (world.warned after thrown).Sound control ∧ (world.warned after thrown).Fresh := by
  have hactive : world.actionActive = true := hsound.active.2 (by simp [hphase])
  cases after with
  | release => exact ⟨hsound.release (by rw [hphase]; rfl), fresh_release⟩
  | completed lease result complete =>
      exact ⟨hsound.close (by rw [hphase]; rfl) _, fresh_release⟩
  | reserved lease run =>
      have hlease : world.phase.lease? = some lease := by
        rw [hphase]
        rfl
      cases thrown with
      | none => exact ⟨hsound.closeReserved hlease run, fresh_release⟩
      | some again =>
          refine ⟨?_, fresh_warn _ _ _⟩
          obtain ⟨how, hclose⟩ := @closeReserved_eq world lease run
          change ((world.closeReserved lease run).warn again .safe .release).Sound control
          rw [hclose]
          exact { hsound with
            active := ⟨fun _ hwarning => (nomatch hwarning), fun _ => hactive⟩
            leases := hsound.settled hlease how
            run := fun _ _ hwarning => nomatch hwarning }

/-- The next lease is the one the phase takes. -/
theorem perm_grant {settled : List (ℕ × LeaseEnd)} {leases : ℕ}
    (hleases : (settled.map Prod.fst).Perm (List.range leases)) :
    (leases :: settled.map Prod.fst).Perm (List.range (leases + 1)) := by
  rw [List.range_succ]
  exact (List.Perm.cons leases hleases).trans (List.perm_append_singleton leases _).symm

theorem sound_reserved (hsound : world.Sound control) (hphase : world.phase = .reserving)
    (hfresh : ∀ record ∈ world.records, record.number < world.accepted) (answer : ReserveAnswer) :
    (world.reserved answer).Sound control ∧ (world.reserved answer).Fresh := by
  have hactive : world.actionActive = true := hsound.active.2 (by simp [hphase])
  have hleases := hsound.leases
  rw [hphase] at hleases
  cases answer with
  | granted =>
      refine ⟨{ hsound with
        active := ⟨fun _ hidle => (nomatch hidle), fun _ => hactive⟩
        leases := perm_grant hleases
        run := ?_ }, fun _ _ => hfresh⟩
      intro lease run hrun
      obtain ⟨-, rfl⟩ := PowerPhase.confirmingReserved.inj hrun
      exact StagingRun.final_initial
  | queued =>
      exact ⟨{ hsound with
        active := ⟨fun _ hidle => (nomatch hidle), fun _ => hactive⟩
        leases := hleases
        run := fun _ _ hrun => nomatch hrun }, fun _ _ => hfresh⟩
  | refused thrown =>
      exact ⟨hsound.warn (by simp [hphase]) (by rw [hphase]; rfl) thrown .safe, fresh_warn _ _ _⟩

theorem sound_batchCompleted (hsound : world.Sound control) (hphase : world.phase = .awaitingBatch)
    (hfresh : ∀ record ∈ world.records, record.number < world.accepted)
    (result : FileStagingBatchResult) (posted : Bool) :
    (world.batchCompleted result posted).Sound control ∧
      (world.batchCompleted result posted).Fresh := by
  have hactive : world.actionActive = true := hsound.active.2 (by simp [hphase])
  have hleases := hsound.leases
  rw [hphase] at hleases
  have hgranted := perm_grant hleases
  cases posted with
  | true =>
      exact ⟨{ hsound with
        active := ⟨fun _ hidle => (nomatch hidle), fun _ => hactive⟩
        leases := hgranted
        run := fun _ _ hrun => nomatch hrun }, fun _ _ => hfresh⟩
  | false =>
      refine ⟨{ hsound with
        active := ⟨fun hfalse => (nomatch hfalse), fun hidle => absurd rfl hidle⟩
        leases := ?_
        run := fun _ _ hrun => nomatch hrun }, fresh_release⟩
      change ((world.settled ++ [(world.leases, LeaseEnd.released)]).map Prod.fst).Perm _
      rw [List.map_append]
      exact List.perm_append_comm.trans hgranted

theorem sound_accept (hsound : world.Sound control) (hfresh : world.Fresh) (action : PowerAction)
    {phase : PowerPhase} (hidle : phase ≠ .idle) (hlease : phase.lease? = none) :
    (world.accept action phase).Sound control ∧ (world.accept action phase).Fresh := by
  rw [accept]
  split_ifs with hactive
  · exact ⟨hsound, hfresh⟩
  · have hphase : world.phase = .idle := by
      by_contra hbusy
      exact hactive (hsound.active.2 hbusy)
    have hleases := hsound.leases
    rw [hphase] at hleases
    refine ⟨{ hsound with
      active := ⟨fun _ => hidle, fun _ => rfl⟩
      leases := ?_
      accepted := fun record hrecord => (hsound.accepted record hrecord).trans (Nat.le_succ _)
      run := ?_ }, fun _ _ record hrecord => Nat.lt_succ_of_le (hsound.accepted record hrecord)⟩
    · change (phase.lease?.toList ++ _).Perm _
      rw [hlease]
      exact hleases
    · intro lease run hrun
      have hsame : phase = .confirmingReserved lease run := hrun
      rw [hsame] at hlease
      exact nomatch hlease

theorem sound_staging (hsound : world.Sound control) {lease : ℕ} {run after : StagingRun}
    (hphase : world.phase = .confirmingReserved lease run)
    (hfresh : ∀ record ∈ world.records, record.number < world.accepted) (hfinal : after.Final) :
    Sound control { world with phase := .confirmingReserved lease after } ∧
      Fresh { world with phase := .confirmingReserved lease after } := by
  have hleases := hsound.leases
  rw [hphase] at hleases
  refine ⟨{ hsound with
    active := ⟨fun _ hidle => (nomatch hidle), fun _ => hsound.active.2 (by simp [hphase])⟩
    leases := hleases
    run := ?_ }, fun _ _ => hfresh⟩
  intro other run hrun
  obtain ⟨-, rfl⟩ := PowerPhase.confirmingReserved.inj hrun
  exact hfinal

theorem sound_step (hsound : world.Sound control) (hfresh : world.Fresh) (event : PowerEvent) :
    (world.step control capability event).Sound control ∧
      (world.step control capability event).Fresh := by
  unfold step
  split_ifs with hterminated
  · exact ⟨hsound, hfresh⟩
  · have hasking : ∀ phase, world.phase = phase → phase.asking = true →
        ∀ record ∈ world.records, record.number < world.accepted :=
      fun phase hphase hasks => hfresh (Bool.eq_false_iff.2 hterminated) (hphase ▸ hasks)
    split
    · exact sound_accept hsound hfresh _ (by simp) rfl
    · exact sound_accept hsound hfresh _ (by simp) rfl
    · next hphase => exact sound_reserved hsound hphase (hasking _ hphase rfl) _
    · next hphase => exact sound_batchCompleted hsound hphase (hasking _ hphase rfl) _ _
    · next lease result hphase =>
        have hleases := hsound.leases
        rw [hphase] at hleases
        exact ⟨{ hsound with
          active := ⟨fun _ hidle => (nomatch hidle), fun _ => hsound.active.2 (by simp [hphase])⟩
          leases := hleases
          run := fun _ _ hrun => nomatch hrun }, fun _ _ => hasking _ hphase rfl⟩
    · next poll advance lease run hphase =>
        exact sound_staging hsound hphase (hasking _ hphase rfl)
          (StagingRun.final_pollStagingPreparation (hsound.run lease run hphase) _ poll advance)
    · next answers lease run hphase =>
        exact sound_staging hsound hphase (hasking _ hphase rfl)
          (StagingRun.final_advanceStaging (hsound.run lease run hphase) answers)
    · next outcome answers hphase =>
        exact sound_directConfirmed hsound hphase (hasking _ hphase rfl) _ _
    · next outcome answers lease run hphase =>
        exact sound_reservedConfirmed hsound hphase (hasking _ hphase rfl) _ _
    · next outcome answers lease result hphase =>
        exact sound_completedConfirmed hsound hphase (hasking _ hphase rfl) _ _
    · next thrown after hphase => exact sound_warned hsound hphase _
    · exact ⟨hsound, hfresh⟩

/-! ## The answer behind a call -/

/-- The call is that of the action in hand, and the answer of the dialog led to it. -/
structure AnsweredBy (world : PowerWorld) (event : PowerEvent) (record : PowerRecord) : Prop where
  event : event = .confirmReturns (.ok record.outcome) record.answers
  basis : world.phase.basis? = some record.basis
  action : record.action = world.action
  number : record.number = world.accepted

/-- What one event adds to the records. -/
def Records (world : PowerWorld) (event : PowerEvent) (after : PowerWorld) : Prop :=
  after.records = world.records ∨
    ∃ record, world.AnsweredBy event record ∧ after.records = world.records ++ [record]

@[simp]
theorem closeReserved_records (lease : ℕ) (run : StagingRun) :
    (world.closeReserved lease run).records = world.records := by
  obtain ⟨how, hclose⟩ := @closeReserved_eq world lease run
  rw [hclose]
  rfl

theorem records_invoke {outcome : PowerActionDialogOutcome} {basis : PowerBasis}
    {answers : PowerAnswers} (hbasis : world.phase.basis? = some basis)
    {failed : Thrown → PowerWorld → PowerWorld} {done : PowerWorld → PowerWorld}
    (hfailed : ∀ thrown called, (failed thrown called).records = called.records)
    (hdone : ∀ called, (done called).records = called.records) :
    world.Records (.confirmReturns (.ok outcome) answers)
      (world.invoke control outcome basis answers failed done) := by
  refine Or.inr ⟨⟨world.accepted, world.action, outcome, basis, answers,
    invokePowerAction control answers world.action⟩, ⟨rfl, hbasis, rfl, rfl⟩, ?_⟩
  rw [invoke]
  split_ifs
  · rfl
  · split
    · rw [hfailed]
      rfl
    · rw [hdone]
      rfl

theorem records_directConfirmed (hphase : world.phase = .directConfirming)
    (outcome : Except Thrown PowerActionDialogOutcome) (answers : PowerAnswers) :
    world.Records (.confirmReturns outcome answers)
      (world.directConfirmed control outcome answers) := by
  unfold directConfirmed
  split
  · exact Or.inl rfl
  · exact Or.inl rfl
  · exact records_invoke (by rw [hphase]; rfl) (fun _ _ => rfl) fun _ => rfl
  · exact Or.inl rfl

theorem records_reservedConfirmed {lease : ℕ} {run : StagingRun}
    (hphase : world.phase = .confirmingReserved lease run)
    (outcome : Except Thrown PowerActionDialogOutcome) (answers : PowerAnswers) :
    world.Records (.confirmReturns outcome answers)
      (world.reservedConfirmed control lease run outcome answers) := by
  have hbasis : world.phase.basis? = some (.reserved run) := by
    rw [hphase]
    rfl
  have hclose : ∀ called : PowerWorld, (called.closeReserved lease run).release.records =
      called.records := fun called => closeReserved_records lease run
  unfold reservedConfirmed
  split
  · exact Or.inl rfl
  · exact Or.inl (hclose world)
  · exact Or.inl (hclose world)
  · refine records_invoke hbasis (fun _ _ => rfl) fun called => ?_
    split_ifs
    · rfl
    · exact hclose called
  · split
    · exact Or.inl rfl
    · exact records_invoke hbasis (fun _ _ => rfl) hclose

theorem records_completedConfirmed {lease : ℕ} {result : FileStagingBatchResult}
    (hphase : world.phase = .confirmingCompleted lease result)
    (outcome : Except Thrown PowerActionDialogOutcome) (answers : PowerAnswers) :
    world.Records (.confirmReturns outcome answers)
      (world.completedConfirmed control lease result outcome answers) := by
  have hbasis : world.phase.basis? = some (.completed result) := by
    rw [hphase]
    rfl
  unfold completedConfirmed
  split
  · exact Or.inl rfl
  · exact Or.inl rfl
  · exact Or.inl rfl
  · exact records_invoke hbasis (fun _ _ => rfl) fun _ => rfl
  · split
    · exact Or.inl rfl
    · exact records_invoke hbasis (fun _ _ => rfl) fun _ => rfl

theorem records_warned (after : AfterWarning) (thrown : Option Thrown) :
    (world.warned after thrown).records = world.records := by
  cases after with
  | release => rfl
  | completed lease result complete => rfl
  | reserved lease run => cases thrown <;> exact closeReserved_records lease run

theorem records_step (world : PowerWorld) (event : PowerEvent) :
    world.Records event (world.step control capability event) := by
  unfold step
  split_ifs
  · exact Or.inl rfl
  · have haccept : ∀ action phase, (world.accept action phase).records = world.records := by
      intro action phase
      rw [accept]
      split_ifs <;> rfl
    split
    · exact Or.inl (haccept _ _)
    · exact Or.inl (haccept _ _)
    · next answer _ => cases answer <;> exact Or.inl rfl
    · next posted _ => cases posted <;> exact Or.inl rfl
    · exact Or.inl rfl
    · exact Or.inl rfl
    · exact Or.inl rfl
    · next hphase => exact records_directConfirmed hphase _ _
    · next hphase => exact records_reservedConfirmed hphase _ _
    · next hphase => exact records_completedConfirmed hphase _ _
    · exact Or.inl (records_warned _ _)
    · exact Or.inl rfl

/-- Every call of a run was led to by an answer in it. -/
theorem records_run (events : List PowerEvent) :
    ∀ record ∈ (run control capability events).records, ∃ front event,
      front ++ [event] <+: events ∧ (run control capability front).AnsweredBy event record := by
  induction events using List.reverseRecOn with
  | nil => exact fun record hrecord => absurd hrecord List.not_mem_nil
  | append_singleton events event ih =>
      have hrun : run control capability (events ++ [event]) =
          (run control capability events).step control capability event := by
        rw [run, List.foldl_append]
        rfl
      intro record hrecord
      rw [hrun] at hrecord
      have hearlier : record ∈ (run control capability events).records → ∃ front event',
          front ++ [event'] <+: events ++ [event] ∧
            (run control capability front).AnsweredBy event' record := by
        intro hmem
        obtain ⟨front, answer, hfront, hanswered⟩ := ih record hmem
        exact ⟨front, answer, hfront.trans (List.prefix_append _ _), hanswered⟩
      rcases records_step (run control capability events) event with hsame | ⟨last, hlast, hadded⟩
      · exact hearlier (hsame ▸ hrecord)
      · rw [hadded] at hrecord
        rcases List.mem_append.1 hrecord with hmem | hmem
        · exact hearlier hmem
        · rw [List.mem_singleton.1 hmem]
          exact ⟨events, event, List.prefix_rfl, hlast⟩

/-! ## The end of an action -/

/-- A call leaves the process ended, or the phase its handler or the rest leaves. -/
theorem rank_invoke {outcome : PowerActionDialogOutcome} {basis : PowerBasis}
    {answers : PowerAnswers} {failed : Thrown → PowerWorld → PowerWorld}
    {done : PowerWorld → PowerWorld} {bound : ℕ}
    (hfailed : ∀ thrown called, (failed thrown called).phase.rank < bound)
    (hdone : ∀ called, (done called).phase.rank < bound) :
    (world.invoke control outcome basis answers failed done).terminated = true ∨
      (world.invoke control outcome basis answers failed done).phase.rank < bound := by
  rw [invoke]
  split_ifs with hterminated
  · exact Or.inl hterminated
  · right
    split
    · exact hfailed _ _
    · exact hdone _

theorem rank_directConfirmed (outcome : Except Thrown PowerActionDialogOutcome)
    (answers : PowerAnswers) :
    (world.directConfirmed control outcome answers).terminated = true ∨
      (world.directConfirmed control outcome answers).phase.rank < 2 := by
  have hwarn : (PowerPhase.warning .release).rank < 2 := Nat.lt_succ_self 1
  have hidle : PowerPhase.idle.rank < 2 := by decide
  unfold directConfirmed
  split
  · exact Or.inr hwarn
  · exact Or.inr hidle
  · exact rank_invoke (fun _ _ => hwarn) (fun _ => hidle)
  · exact Or.inr hwarn

theorem rank_reservedConfirmed (lease : ℕ) (run : StagingRun)
    (outcome : Except Thrown PowerActionDialogOutcome) (answers : PowerAnswers) :
    (world.reservedConfirmed control lease run outcome answers).terminated = true ∨
      (world.reservedConfirmed control lease run outcome answers).phase.rank < 3 := by
  have hwarn : (PowerPhase.warning (.reserved lease run)).rank < 3 := Nat.lt_succ_self 2
  have hidle : PowerPhase.idle.rank < 3 := by decide
  unfold reservedConfirmed
  split
  · exact Or.inr hwarn
  · exact Or.inr hidle
  · exact Or.inr hidle
  · apply rank_invoke (fun _ _ => hwarn)
    intro called
    split_ifs <;> exact hidle
  · split
    · exact Or.inr hwarn
    · exact rank_invoke (fun _ _ => hwarn) (fun _ => hidle)

theorem rank_completedConfirmed (lease : ℕ) (result : FileStagingBatchResult)
    (outcome : Except Thrown PowerActionDialogOutcome) (answers : PowerAnswers) :
    (world.completedConfirmed control lease result outcome answers).terminated = true ∨
      (world.completedConfirmed control lease result outcome answers).phase.rank < 2 := by
  have hwarn : ∀ complete, (PowerPhase.warning (.completed lease result complete)).rank < 2 :=
    fun _ => Nat.lt_succ_self 1
  have hidle : PowerPhase.idle.rank < 2 := by decide
  unfold completedConfirmed
  split
  · exact Or.inr (hwarn false)
  · exact Or.inr hidle
  · exact Or.inr hidle
  · exact rank_invoke (fun _ _ => hwarn true) (fun _ => hidle)
  · split
    · exact Or.inr (hwarn false)
    · exact rank_invoke (fun _ _ => hwarn true) (fun _ => hidle)

/-- While an action is active no event takes it back, and each answer takes it on. -/
theorem rank_step (hactive : world.actionActive = true) (hrunning : world.terminated = false)
    (event : PowerEvent) :
    (world.step control capability event).terminated = true ∨
      (world.step control capability event).phase.rank +
        (if world.phase.answeredBy event then 1 else 0) ≤ world.phase.rank := by
  have haccept : ∀ action phase, world.accept action phase = world := by
    intro action phase
    rw [accept, if_pos hactive]
  unfold step
  rw [if_neg (by simp [hrunning])]
  split
  · right
    rw [haccept]
    simp [PowerPhase.answeredBy]
  · right
    rw [haccept]
    simp [PowerPhase.answeredBy]
  · next answer hphase =>
      right
      rw [hphase]
      cases answer <;> simp [reserved, warn, PowerPhase.rank, PowerPhase.answeredBy]
  · next result posted hphase =>
      right
      rw [hphase]
      cases posted <;>
        simp [batchCompleted, release, PowerPhase.rank, PowerPhase.answeredBy]
  · next lease result hphase =>
      right
      rw [hphase]
      simp [PowerPhase.rank, PowerPhase.answeredBy]
  · next poll advance lease run hphase =>
      right
      rw [hphase]
      simp [PowerPhase.rank, PowerPhase.answeredBy]
  · next answers lease run hphase =>
      right
      rw [hphase]
      simp [PowerPhase.rank, PowerPhase.answeredBy]
  · next outcome answers hphase =>
      rw [hphase]
      exact rank_directConfirmed outcome answers
  · next outcome answers lease run hphase =>
      rw [hphase]
      exact rank_reservedConfirmed lease run outcome answers
  · next outcome answers lease result hphase =>
      rw [hphase]
      exact rank_completedConfirmed lease result outcome answers
  · next thrown after hphase =>
      right
      rw [hphase]
      cases after with
      | release => simp [warned, release, PowerPhase.rank, PowerPhase.answeredBy]
      | completed lease result complete =>
          simp [warned, release, PowerPhase.rank, PowerPhase.answeredBy]
      | reserved lease run =>
          cases thrown <;> simp [warned, release, warn, PowerPhase.rank, PowerPhase.answeredBy]
  · right
    split_ifs with hanswered
    · unfold PowerPhase.answeredBy at hanswered
      split at hanswered <;> grind
    · exact le_refl _

/-! ## Runs -/

theorem sound_run (control : PreshutdownCommitControl) (capability : UwfCapability)
    (events : List PowerEvent) :
    (run control capability events).Sound control ∧ (run control capability events).Fresh :=
  List.foldlRecOn (motive := fun world => world.Sound control ∧ world.Fresh) events
    (step control capability) ⟨sound_initial, fresh_of_not_asking rfl⟩ fun _ hworld event _ => sound_step hworld.1 hworld.2 event

/-- The events of a stretch that answer the phase they find. -/
def answered (control : PreshutdownCommitControl) (capability : UwfCapability) :
    PowerWorld → List PowerEvent → ℕ
  | _, [] => 0
  | world, event :: rest =>
      (if world.phase.answeredBy event then 1 else 0) +
        answered control capability (world.step control capability event) rest

/-- The flag is released, or the process ended, once an action has got its answers. -/
theorem released_of_answered {events : List PowerEvent}
    (hanswered : world.phase.rank < answered control capability world events) :
    ∃ front, front <+: events ∧
      ((front.foldl (step control capability) world).actionActive = false ∨
        (front.foldl (step control capability) world).terminated = true) := by
  induction events generalizing world with
  | nil => exact absurd hanswered (Nat.not_lt_zero _)
  | cons event rest ih =>
      by_cases hended : world.actionActive = false ∨ world.terminated = true
      · exact ⟨[], List.nil_prefix, hended⟩
      · rw [not_or, Bool.not_eq_false, Bool.not_eq_true] at hended
        rcases rank_step hended.1 hended.2 event with hterminated | hrank
        · exact ⟨[event], ⟨rest, rfl⟩, Or.inr hterminated⟩
        · rw [answered] at hanswered
          have hrest : (world.step control capability event).phase.rank <
              answered control capability (world.step control capability event) rest := by
            omega
          obtain ⟨front, ⟨back, hback⟩, hfront⟩ := ih hrest
          exact ⟨event :: front, ⟨back, by rw [List.cons_append, hback]⟩, hfront⟩

theorem rank_le (phase : PowerPhase) : phase.rank ≤ 5 := by
  unfold PowerPhase.rank
  split <;> decide

/-- In every run an accepted action calls the provider once at most and only after an answer of
the dialog that allows it, a token is revoked when the provider fails, the flag is set
while an action has a call to wait for and is released after its answers, and a lease is
settled once at most. -/
theorem power_actions_gated (control : PreshutdownCommitControl) (capability : UwfCapability)
    (events : List PowerEvent) :
    (run control capability events).records.Pairwise
        (fun earlier later => earlier.number < later.number) ∧
      (∀ record ∈ (run control capability events).records,
        record.Allowed ∧
        (∃ front event, front ++ [event] <+: events ∧
          (run control capability front).AnsweredBy event record) ∧
        record.number ≤ (run control capability events).accepted ∧
        (powerCalls record.invocation.calls = [] ∨
          powerCalls record.invocation.calls = [record.action]) ∧
        (powerCalls record.invocation.calls ≠ [] → TokenLeft control record.answers →
          record.invocation.calls.getLast? = some .markRequired)) ∧
      ((run control capability events).actionActive = true ↔
        (run control capability events).phase ≠ .idle) ∧
      (∀ later, 5 < answered control capability (run control capability events) later →
        ∃ front, front <+: later ∧
          ((run control capability (events ++ front)).actionActive = false ∨
            (run control capability (events ++ front)).terminated = true)) ∧
      ((run control capability events).settled.map Prod.fst).Nodup := by
  have hsound := (sound_run control capability events).1
  refine ⟨hsound.numbers, ?_, hsound.active, ?_, ?_⟩
  · intro record hrecord
    obtain ⟨hallowed, hinvocation⟩ := hsound.records record hrecord
    refine ⟨hallowed, records_run events record hrecord, hsound.accepted record hrecord, ?_, ?_⟩
    · rw [hinvocation]
      exact powerCalls_invokePowerAction control record.answers record.action
    · rw [hinvocation]
      exact fun hcalled hleft =>
        markRequired_of_tokenLeft control record.answers record.action hleft hcalled
  · intro later hlater
    obtain ⟨front, hfront, hended⟩ :=
      released_of_answered (Nat.lt_of_le_of_lt (rank_le _) hlater)
    refine ⟨front, hfront, ?_⟩
    rw [run, List.foldl_append]
    exact hended
  · have hnodup := hsound.leases.nodup_iff.2 List.nodup_range
    exact (List.nodup_append.1 hnodup).2.1

/-- No lease is lost: one that is not in the hands of the action is settled. -/
theorem leases_settled (control : PreshutdownCommitControl) (capability : UwfCapability)
    (events : List PowerEvent) (hidle : (run control capability events).actionActive = false) :
    ((run control capability events).settled.map Prod.fst).Perm
      (List.range (run control capability events).leases) := by
  have hsound := (sound_run control capability events).1
  have hphase : (run control capability events).phase = .idle := by
    by_contra hbusy
    rw [hsound.active.2 hbusy] at hidle
    exact absurd hidle (by decide)
  have hleases := hsound.leases
  rwa [hphase] at hleases

end PowerWorld

end UwfManager
