import UwfManager.Overlay.CoordinatorOperations

/-!
# What a detachment of the coordinator holds

A detachment begins with the rollback of a prepared transaction and then releases one
strategy after the other.  While it does so, nothing else that the coordinator holds is
touched.
-/

namespace UwfManager

open TaskbarLayoutStrategy (DetachResult)

namespace TaskbarLayoutCoordinator

variable {σ S W : Type*}

theorem releaseStatus_pending (c : TaskbarLayoutCoordinator σ S W) :
    c.releaseStatus ≠ .prepared ∧ c.releaseStatus ≠ .attached := by
  rw [releaseStatus]
  split_ifs <;> exact ⟨by rintro ⟨⟩, by rintro ⟨⟩⟩

def announce (c : TaskbarLayoutCoordinator σ S W) (cause : DetachmentCause) : TaskbarLayoutCoordinator σ S W :=
  if cause = .hostInvalidated then c.publish ⟨.started, .hostInvalidated⟩ else c

def DetachmentCause.notices : DetachmentCause → List DetachEvent
  | hostInvalidated => [⟨.started, .hostInvalidated⟩]
  | userRequested => []

theorem announce_eq (c : TaskbarLayoutCoordinator σ S W) (cause : DetachmentCause) :
    c.announce cause = { c with
      notifications := c.notifications ++ cause.notices
      log := c.log ++ cause.notices.map .published } := by
  cases cause with
  | hostInvalidated => rfl
  | userRequested =>
      rw [announce, if_neg (by rintro ⟨⟩)]
      simp only [DetachmentCause.notices, List.map_nil, List.append_nil]

variable [DecidableEq S] (c : TaskbarLayoutCoordinator σ S W) {calls : TaskbarShell σ S W}

/-- The cause and the number of attempts stay as they are. -/
theorem releaseStrategies_context (strategies : List S) (context : DetachingContext S W) :
    (releaseStrategies calls strategies context c).1.cause = context.cause ∧
      (releaseStrategies calls strategies context c).1.attempts = context.attempts := by
  induction strategies generalizing c context with
  | nil => exact ⟨rfl, rfl⟩
  | cons strategy rest ih =>
      rw [releaseStrategies]
      simp only
      split_ifs
      · exact ih _ context
      · exact ih _ (context.released strategy _)

/-- A round for an invalidated host takes over the strategies of a release on request. -/
theorem escalateDetaching_cases {context : DetachingContext S W}
    (hcontext : c.detaching = some context) :
    context.cause = .hostInvalidated ∧ c.escalateDetaching = c ∨
      context.cause = .userRequested ∧ ∃ strategies, (∀ strategy ∈ c.strategies,
        strategy ∈ strategies) ∧ c.escalateDetaching = { c with
          detaching := some { context with
            cause := .hostInvalidated, attempts := 0, strategies := strategies }
          notifications := c.notifications ++ [⟨.started, .hostInvalidated⟩]
          log := c.log ++ [.published ⟨.started, .hostInvalidated⟩]
          asyncTimer := some 0 } := by
  have hescalate : c.escalateDetaching = if context.cause = .hostInvalidated then c else
      { ({ c with detaching := some { context with
            cause := .hostInvalidated
            attempts := 0
            strategies := context.strategies ++
              c.strategies.filter fun strategy => !context.strategies.contains strategy } } :
          TaskbarLayoutCoordinator σ S W).publish ⟨.started, .hostInvalidated⟩ with
        asyncTimer := some 0 } := by
    unfold escalateDetaching
    rw [hcontext]
  rw [hescalate]
  cases hcause : context.cause with
  | hostInvalidated => exact Or.inl ⟨rfl, if_pos rfl⟩
  | userRequested =>
      refine Or.inr ⟨rfl, _, fun strategy hmem => ?_, if_neg (by rintro ⟨⟩)⟩
      by_cases hkept : strategy ∈ context.strategies
      · exact List.mem_append_left _ hkept
      · refine List.mem_append_right _ (List.mem_filter.2 ⟨hmem, ?_⟩)
        rw [List.contains_eq_mem, decide_eq_false hkept, Bool.not_false]

/-- One attempt completes the detachment, or leaves some strategies to the timer. -/
theorem advanceDetaching_cases {context : DetachingContext S W}
    (hcontext : c.detaching = some context) :
    ∃ left released, releaseStrategies calls context.strategies
        { context with attempts := context.attempts + 1 } c = (left, released) ∧
      (left.strategies = [] ∧ c.advanceDetaching calls =
          ({ released with detaching := some left } : TaskbarLayoutCoordinator σ S W).post
            .detachCompleted (left.disposition = .destroyed) ∨
        ∃ notices interval, (∀ notice ∈ notices, notice.phase = DetachPhase.blocked) ∧
          c.advanceDetaching calls = { released with
            detaching := some left
            notifications := released.notifications ++ notices
            log := released.log ++ notices.map .published
            asyncTimer := some interval }) := by
  rw [advanceDetaching, hcontext]
  simp only
  generalize releaseStrategies calls context.strategies
    { context with attempts := context.attempts + 1 } c = advanced
  obtain ⟨left, released⟩ := advanced
  refine ⟨left, released, rfl, ?_⟩
  simp only
  by_cases hempty : left.strategies.isEmpty = true
  · rw [if_pos hempty]
    exact Or.inl ⟨List.isEmpty_iff.1 hempty, rfl⟩
  rw [if_neg hempty]
  by_cases hfirst : left.attempts = 1
  · rw [if_pos hfirst]
    refine Or.inr ⟨[⟨.blocked, left.cause.reason⟩], _, fun notice hnotice => ?_, rfl⟩
    rw [List.mem_singleton.1 hnotice]
  · rw [if_neg hfirst]
    refine Or.inr ⟨[], if left.attempts < kFastRetryAttempts then kFastRetryIntervalMs
      else kSlowRetryIntervalMs, fun _ hnotice => absurd hnotice List.not_mem_nil, ?_⟩
    simp only [List.append_nil, List.map_nil]

variable [DecidableEq W]

/-- Nothing that is held has changed. -/
structure Undisturbed (calls : TaskbarShell σ S W)
    (before after : TaskbarLayoutCoordinator σ S W) : Prop where
  frame : Frame calls before after
  attachment : after.attachment = before.attachment
  transaction : after.transaction = before.transaction
  compatible : after.compatible = before.compatible
  fate : after.fate = before.fate

theorem Undisturbed.refl : Undisturbed calls c c :=
  ⟨Frame.refl c, rfl, rfl, rfl, rfl⟩

theorem Undisturbed.trans {first second third : TaskbarLayoutCoordinator σ S W}
    (hfirst : Undisturbed calls first second) (hsecond : Undisturbed calls second third) :
    Undisturbed calls first third :=
  ⟨hfirst.frame.trans hsecond.frame, hsecond.attachment.trans hfirst.attachment,
    hsecond.transaction.trans hfirst.transaction, hsecond.compatible.trans hfirst.compatible,
    hsecond.fate.trans hfirst.fate⟩

theorem call_undisturbed {α : Type*} {answer : σ → Reply σ W α}
    (heffect : calls.Effect c.shell (answer c.shell).effect) :
    Undisturbed calls c (c.call answer).2 :=
  have hframe := call_frame c answer heffect
  ⟨hframe, call_attachment c answer, call_transaction c answer,
    compatible_congr c hframe.strategies (call_processIncompatibleStrategies c answer),
    call_fate c answer⟩

/-- An entry about the release of a strategy settles no transaction. -/
def LogEntry.IsRelease : LogEntry S W → Prop
  | detached _ _ | invalidated _ _ => True
  | _ => False

theorem LogEntry.IsRelease.after {entry : LogEntry S W} (hrelease : entry.IsRelease)
    (fate : Fate S W) : fate.after entry = fate := by
  cases entry <;> first | exact hrelease.elim | (cases fate <;> rfl)

theorem record_undisturbed {entry : LogEntry S W} (hrelease : entry.IsRelease) :
    Undisturbed calls c (c.record entry) := by
  refine ⟨Frame.record c ?_ ?_, rfl, rfl, rfl, ?_⟩
  · cases entry <;> first | exact hrelease.elim | exact trivial
  · rintro holding rfl
    exact hrelease
  · rw [fate_record, hrelease.after]

/-- A notice settles no transaction. -/
theorem publish_fate (event : DetachEvent) : (c.publish event).fate = c.fate := by
  change (c.record (.published event)).fate = _
  rw [fate_record]
  cases c.fate <;> rfl

/-- Nor do several notices. -/
theorem notices_fate (fate : Fate S W) (notices : List DetachEvent) :
    (notices.map LogEntry.published).foldl Fate.after fate = fate := by
  induction notices with
  | nil => rfl
  | cons notice rest ih =>
      rw [List.map_cons, List.foldl_cons]
      have hafter : fate.after (.published notice) = fate := by cases fate <;> rfl
      rw [hafter, ih]

/-! ## Windows -/

/-- A new window is asked for, and the answer is posted. -/
theorem recreateWindow_spec :
    ∃ between type, c.recreateWindow calls = between.post type false ∧
      type ∈ [EventType.windowRecreated, .windowRecreationFailed] ∧
      Undisturbed calls c between := by
  rw [recreateWindow]
  cases c.request with
  | none => exact ⟨c, _, rfl, by simp, Undisturbed.refl c⟩
  | some request =>
      have hcall : Undisturbed calls c (c.call calls.recreateWindow).2 :=
        call_undisturbed c .recreateWindow
      simp only
      generalize c.call calls.recreateWindow = recreated at hcall
      obtain ⟨window, recreated⟩ := recreated
      cases window with
      | none => exact ⟨recreated, _, rfl, by simp, hcall⟩
      | some window =>
          exact ⟨_, _, rfl, by simp, hcall.frame.trans (Frame.inner recreated _ _ _ _ _),
            hcall.attachment, hcall.transaction, hcall.compatible, hcall.fate⟩

theorem recreateDetachedWindow_spec :
    ∃ between type, c.recreateDetachedWindow calls = between.post type false ∧
      type ∈ [EventType.windowRecreated, .windowRecreationFailed] ∧
      Undisturbed calls c between := by
  rw [recreateDetachedWindow]
  split_ifs
  · refine ⟨_, _, rfl, ?_, call_undisturbed c .recreateWindow⟩
    split_ifs <;> simp
  · exact ⟨c, _, rfl, by simp, Undisturbed.refl c⟩

/-! ## The beginning of a detachment -/

/-- The window is hidden before the transaction is rolled back, so the transaction is
settled. -/
theorem rollbackPrepared_spec (hsecured : c.Secured) :
    let rolledBack := ((c.hideAttachment calls).rollbackPrepared calls).2
    Frame calls c rolledBack ∧ rolledBack.transaction = none ∧ rolledBack.fate = .settled ∧
      rolledBack.compatible = c.compatible := by
  intro rolledBack
  have hide : Frame calls c (c.hideAttachment calls) ∧
      (c.hideAttachment calls).transaction = c.transaction ∧
      (c.hideAttachment calls).processIncompatibleStrategies = c.processIncompatibleStrategies := by
    rw [hideAttachment]
    cases c.attachment with
    | none => exact ⟨Frame.refl c, rfl, rfl⟩
    | some attachment =>
        exact ⟨hideWindow_frame c _, hideWindow_transaction c _,
          hideWindow_processIncompatibleStrategies c _⟩
  obtain ⟨hframe, hkept, hincompatible⟩ := hide
  have hsame := compatible_congr c hframe.strategies hincompatible
  rw [Secured] at hsecured
  cases htransaction : c.transaction with
  | none =>
      have hnone : rolledBack = c.hideAttachment calls := by
        change ((c.hideAttachment calls).rollbackPrepared calls).2 = _
        rw [rollbackPrepared, hkept, htransaction]
      have hsettled : c.fate = .settled := by
        rw [htransaction] at hsecured
        exact hsecured
      rw [hnone]
      refine ⟨hframe, hkept.trans htransaction, ?_, hsame⟩
      rw [hideAttachment]
      cases c.attachment with
      | none => exact hsettled
      | some attachment =>
          change (c.hideWindow calls attachment.window).fate = _
          rw [hideWindow_fate, hsettled]
          rfl
  | some strategy =>
      rw [htransaction] at hsecured
      obtain ⟨attachment, hattachment, hfate⟩ := hsecured
      have hhide : c.hideAttachment calls = c.hideWindow calls attachment.window := by
        rw [hideAttachment, hattachment]
      have hundone : rolledBack =
          { ((c.hideAttachment calls).rollback calls strategy).2 with transaction := none } := by
        change ((c.hideAttachment calls).rollbackPrepared calls).2 = _
        rw [rollbackPrepared, hkept, htransaction]
      have hroll : Frame calls (c.hideAttachment calls)
          ((c.hideAttachment calls).rollback calls strategy).2 := rollback_frame _ strategy
      rw [hundone]
      refine ⟨(hframe.trans hroll).trans (Frame.inner _ _ _ _ _ _), rfl, ?_, ?_⟩
      · change ((c.hideAttachment calls).rollback calls strategy).2.fate = _
        rw [rollback_fate, hhide, hideWindow_fate]
        rcases hfate with hsettled | ⟨hidden, hpending⟩
        · rw [hsettled]
          rfl
        · rw [hpending, Fate.after, beq_self_eq_true, Bool.or_true]
          exact if_pos ⟨rfl, rfl⟩
      · refine Eq.trans ?_ hsame
        exact compatible_congr _ hroll.strategies
          (rollback_processIncompatibleStrategies _ strategy)

/-- What a detachment finds when it has begun, and the event that it posts. -/
structure Begun (calls : TaskbarShell σ S W) (before : TaskbarLayoutCoordinator σ S W)
    (cause : DetachmentCause) (between : TaskbarLayoutCoordinator σ S W)
    (context : DetachingContext S W) : Prop where
  frame : Frame calls { before with lastAttachResult := .releasePending } between
  transaction : between.transaction = none
  fate : between.fate = .settled
  compatible : between.compatible = before.compatible
  cause_eq : context.cause = cause
  attempts : context.attempts = 0
  strategies : cause = .hostInvalidated → context.strategies = between.strategies

@[simp] theorem announce_fate (cause : DetachmentCause) : (c.announce cause).fate = c.fate := by
  rw [announce]
  split_ifs
  · exact publish_fate c _
  · rfl

theorem beginDetaching_spec (hsecured : c.Secured) (cause : DetachmentCause) :
    ∃ between context, Begun calls c cause between context ∧
      c.beginDetaching calls cause =
        (({ between with preparedStrategy := none, detaching := some context } :
          TaskbarLayoutCoordinator σ S W).announce cause).post
            (if context.strategies.isEmpty then .detachCompleted else .detachBlocked)
            (context.disposition = .destroyed) := by
  have hrolled := @rollbackPrepared_spec σ S W _ { c with lastAttachResult := .releasePending }
    calls _ hsecured
  rw [beginDetaching]
  generalize ({ c with lastAttachResult := .releasePending }.hideAttachment
    calls).rollbackPrepared calls = rolledBack at hrolled
  obtain ⟨hframe, htransaction, hfate, hcompatible⟩ := hrolled
  refine ⟨rolledBack.2, rolledBack.2.detachingContext cause rolledBack.1,
    ⟨hframe, htransaction, hfate, hcompatible, rfl, rfl, ?_⟩, rfl⟩
  rintro rfl
  rfl

/-! ## The strategies of a detachment -/

theorem release_undisturbed (cause : DetachmentCause) (strategy : S) :
    Undisturbed calls c (c.release calls cause strategy).2 := by
  cases cause with
  | userRequested =>
      exact (call_undisturbed c (.detach strategy)).trans (record_undisturbed _ trivial)
  | hostInvalidated =>
      exact (call_undisturbed c (.invalidate strategy)).trans (record_undisturbed _ trivial)

theorem releaseStrategies_undisturbed (strategies : List S) (context : DetachingContext S W) :
    Undisturbed calls c (releaseStrategies calls strategies context c).2 := by
  induction strategies generalizing c context with
  | nil => exact Undisturbed.refl c
  | cons strategy rest ih =>
      have hrelease := @release_undisturbed σ S W _ c calls _ context.cause strategy
      rw [releaseStrategies]
      simp only
      split_ifs
      · exact hrelease.trans (ih _ context)
      · exact hrelease.trans (ih _ _)

end TaskbarLayoutCoordinator

end UwfManager
