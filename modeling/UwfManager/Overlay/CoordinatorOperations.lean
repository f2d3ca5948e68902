import UwfManager.Overlay.CoordinatorFrames

/-!
# What the operations of the coordinator hold

Each operation ends with one event in the queue.  The event tells what is held then:
an attachment, a committed transaction, both or nothing.
-/

namespace UwfManager

open TaskbarLayoutStrategy (AttachReadiness DetachResult)

namespace TaskbarLayoutCoordinator

variable {σ S W : Type*} [DecidableEq S] (c : TaskbarLayoutCoordinator σ S W)

/-! ## Compatible strategies -/

/-- How many strategies are still tried. -/
def compatible : ℕ := c.strategies.countP fun strategy => !c.isProcessIncompatible strategy

theorem compatible_congr {other : TaskbarLayoutCoordinator σ S W}
    (hstrategies : other.strategies = c.strategies)
    (hincompatible : other.processIncompatibleStrategies = c.processIncompatibleStrategies) :
    other.compatible = c.compatible := by
  rw [compatible, compatible, hstrategies]
  simp only [isProcessIncompatible, hincompatible]

theorem markProcessIncompatible_strategies (strategy : S) :
    (c.markProcessIncompatible strategy).strategies = c.strategies := by
  rw [markProcessIncompatible]
  split_ifs <;> rfl

theorem isProcessIncompatible_mark (strategy other : S) :
    (c.markProcessIncompatible strategy).isProcessIncompatible other =
      (c.isProcessIncompatible other || other == strategy) := by
  rw [markProcessIncompatible]
  split_ifs with hmarked
  · cases hother : other == strategy with
    | false => rw [Bool.or_false]
    | true => rw [eq_of_beq hother, hmarked, Bool.true_or]
  · simp only [isProcessIncompatible, List.contains_eq_mem, List.mem_append, List.mem_singleton,
      Bool.decide_or]
    rfl

/-- A strategy that is still tried is no longer tried after it was marked. -/
theorem compatible_mark_lt {strategy : S} (hmem : strategy ∈ c.strategies)
    (hcompatible : c.isProcessIncompatible strategy = false) :
    (c.markProcessIncompatible strategy).compatible < c.compatible := by
  obtain ⟨front, back, hsplit⟩ := List.append_of_mem hmem
  have hle : ∀ strategies : List S,
      strategies.countP (fun other => !(c.markProcessIncompatible strategy).isProcessIncompatible
        other) ≤ strategies.countP fun other => !c.isProcessIncompatible other := by
    intro strategies
    apply List.countP_mono_left
    intro other _ hother
    rw [isProcessIncompatible_mark, Bool.not_or, Bool.and_eq_true] at hother
    exact hother.1
  have hmarked : (!(c.markProcessIncompatible strategy).isProcessIncompatible strategy) = false := by
    rw [isProcessIncompatible_mark, beq_self_eq_true, Bool.or_true, Bool.not_true]
  have hunmarked : (!c.isProcessIncompatible strategy) = true := by
    rw [hcompatible, Bool.not_false]
  have hfront := hle front
  have hback := hle back
  rw [compatible, compatible, markProcessIncompatible_strategies, hsplit, List.countP_append,
    List.countP_append, List.countP_cons, List.countP_cons, hmarked, hunmarked,
    if_neg Bool.false_ne_true, if_pos rfl]
  omega

theorem compatible_mark_le (strategy : S) :
    (c.markProcessIncompatible strategy).compatible ≤ c.compatible := by
  rw [compatible, compatible, markProcessIncompatible_strategies]
  apply List.countP_mono_left
  intro other _ hother
  rw [isProcessIncompatible_mark, Bool.not_or, Bool.and_eq_true] at hother
  exact hother.1

variable {calls : TaskbarShell σ S W}

/-- A part of `runPrepare` brings back no attachment and no strategy. -/
structure Forward (calls : TaskbarShell σ S W) (before after : TaskbarLayoutCoordinator σ S W) :
    Prop where
  frame : Frame calls before after
  request : after.request = before.request
  attachment : before.attachment = none → after.attachment = none
  compatible : after.compatible ≤ before.compatible

theorem Forward.trans {first second third : TaskbarLayoutCoordinator σ S W}
    (hfirst : Forward calls first second) (hsecond : Forward calls second third) :
    Forward calls first third :=
  ⟨hfirst.frame.trans hsecond.frame, hsecond.request.trans hfirst.request,
    fun hnone => hsecond.attachment (hfirst.attachment hnone),
    Nat.le_trans hsecond.compatible hfirst.compatible⟩

variable [DecidableEq W]

/-! ## The fate of a transaction -/

/-- What has become of the transaction that was committed last: finalized or rolled back in
time, still pending with its window hidden or not, or lost. -/
inductive Fate (S W : Type*) where
  | settled
  | pending (strategy : S) (window : W) (hidden : Bool)
  | lost
  deriving DecidableEq

/-- A pending transaction is settled when it is finalized, or when it is rolled back while
its window is hidden; it is lost in any other end. -/
def Fate.after : Fate S W → LogEntry S W → Fate S W
  | settled, .committed strategy window _ => pending strategy window false
  | pending strategy window hidden, .hidden other =>
      pending strategy window (hidden || window == other)
  | pending strategy window hidden, .shown other =>
      pending strategy window (hidden && window != other)
  | pending strategy window hidden, .finalized other result =>
      if strategy = other then
        if result = .attached then settled else pending strategy window hidden
      else lost
  | pending strategy _ hidden, .rolledBack other _ =>
      if strategy = other ∧ hidden = true then settled else lost
  | pending _ _ _, .committed _ _ _ => lost
  | fate, _ => fate

def fate : Fate S W := c.log.foldl Fate.after .settled

theorem fate_record (entry : LogEntry S W) : (c.record entry).fate = c.fate.after entry := by
  rw [fate, record, List.foldl_append]
  rfl

theorem Fate.after_received (fate : Fate S W) (holding : Bool) :
    fate.after (.received holding) = fate := by
  cases fate <;> rfl

/-- Arrivals settle no transaction. -/
theorem Arrived.fate {count : ℕ} {first second : TaskbarLayoutCoordinator σ S W}
    (harrived : Arrived count first second) : second.fate = first.fate := by
  obtain ⟨added, hlog, hadded, -⟩ := harrived.log
  rw [TaskbarLayoutCoordinator.fate, hlog, List.foldl_append]
  change added.foldl Fate.after first.fate = first.fate
  clear hlog
  induction added with
  | nil => rfl
  | cons entry rest ih =>
      obtain ⟨holding, rfl⟩ := hadded entry List.mem_cons_self
      rw [List.foldl_cons, Fate.after_received]
      exact ih fun other hother => hadded other (List.mem_cons_of_mem _ hother)

@[simp] theorem call_fate {α : Type*} (answer : σ → Reply σ W α) :
    (c.call answer).2.fate = c.fate :=
  (call_arrived c answer).fate

@[simp] theorem hideWindow_fate (window : W) :
    (c.hideWindow calls window).fate = c.fate.after (.hidden window) := by
  rw [hideWindow, call_fate, fate_record]

@[simp] theorem commit_fate (window : W) (strategy : S) : (c.commit calls window strategy).2.fate =
    c.fate.after (.committed strategy window (c.commit calls window strategy).1) := by
  rw [commit, fate_record, call_fate]

@[simp] theorem rollback_fate (strategy : S) : (c.rollback calls strategy).2.fate =
    c.fate.after (.rolledBack strategy (c.rollback calls strategy).1) := by
  rw [rollback, fate_record, call_fate]

@[simp] theorem detachStrategy_fate (strategy : S) :
    (c.detachStrategy calls strategy).2.fate =
      c.fate.after (.detached strategy (c.detachStrategy calls strategy).1) := by
  rw [detachStrategy, fate_record, call_fate]

/-! ## `runPrepare` -/

/-- A transaction has been committed and all that it needs is held. -/
structure Ready (c : TaskbarLayoutCoordinator σ S W) (strategy : S) (window : W) : Prop where
  attachment : c.attachment = some ⟨strategy, window⟩
  transaction : c.transaction = some strategy
  preparedStrategy : c.preparedStrategy = some strategy
  request : c.request = some ⟨window⟩
  mem : strategy ∈ c.strategies
  compatible : c.isProcessIncompatible strategy = false
  fate : ∃ hidden, c.fate = .pending strategy window hidden

/-- What is held when `runPrepare` posts its result. -/
inductive PrepareResult (before after : TaskbarLayoutCoordinator σ S W) : EventType → Prop
  | prepared {strategy : S} {window : W} (hready : after.Ready strategy window) :
      PrepareResult before after .operationPrepared
  | retained (hbefore : before.attachment.isSome) (hattachment : after.attachment.isSome)
      (htransaction : after.transaction = none) (hfate : after.fate = .settled) :
      PrepareResult before after .operationRetained
  | ended {type : EventType}
      (htype : type ∈ [.operationTemporary, .operationIncompatible, .operationFailed,
        .operationRecreateFailure, .operationRecreateIncompatible])
      (hattachment : after.attachment = none) (htransaction : after.transaction = none)
      (hfate : after.fate = .settled) : PrepareResult before after type
  | retry (hattachment : after.attachment = none) (htransaction : after.transaction = none)
      (hfate : after.fate = .settled)
      (hfewer : before.attachment = none → after.compatible < before.compatible) :
      PrepareResult before after before.recreateForRetry
  | needsDetach (hattachment : after.attachment.isSome) (htransaction : after.transaction = none)
      (hfate : after.fate = .settled) : PrepareResult before after .operationNeedsDetach

/-- What `runPrepare` has so far done without posting a result. -/
structure Preparing (calls : TaskbarShell σ S W) (before after : TaskbarLayoutCoordinator σ S W) :
    Prop extends Forward calls before after where
  transaction : after.transaction = none
  fate : after.fate = .settled

/-- The run of an operation up to the event that it posts. -/
structure Prepared (calls : TaskbarShell σ S W) (before between : TaskbarLayoutCoordinator σ S W)
    (type : EventType) : Prop where
  frame : Frame calls before between
  request : between.request = before.request
  compatible : between.compatible ≤ before.compatible
  result : PrepareResult before between type

theorem PrepareResult.weaken {before middle after : TaskbarLayoutCoordinator σ S W}
    {type : EventType} (hprepares : Forward calls before middle)
    (hresult : PrepareResult middle after type) : PrepareResult before after type := by
  cases hresult with
  | prepared hready => exact .prepared hready
  | retained hbefore hattachment htransaction hfate =>
      refine .retained ?_ hattachment htransaction hfate
      by_contra hnone
      rw [Option.not_isSome_iff_eq_none] at hnone
      rw [hprepares.attachment hnone] at hbefore
      cases hbefore
  | ended htype hattachment htransaction hfate => exact .ended htype hattachment htransaction hfate
  | retry hattachment htransaction hfate hfewer =>
      have hretry : middle.recreateForRetry = before.recreateForRetry := by
        rw [recreateForRetry, recreateForRetry, hprepares.frame.state]
      rw [hretry]
      exact .retry hattachment htransaction hfate fun hnone =>
        Nat.lt_of_lt_of_le (hfewer (hprepares.attachment hnone)) hprepares.compatible
  | needsDetach hattachment htransaction hfate => exact .needsDetach hattachment htransaction hfate

theorem Prepared.weaken {before middle between : TaskbarLayoutCoordinator σ S W}
    {type : EventType} (hprepares : Forward calls before middle)
    (hprepared : Prepared calls middle between type) : Prepared calls before between type :=
  ⟨hprepares.frame.trans hprepared.frame, hprepared.request.trans hprepares.request,
    Nat.le_trans hprepared.compatible hprepares.compatible, hprepared.result.weaken hprepares⟩

/-- A strategy that was tried has posted the result, or the next one is tried. -/
inductive Tried (calls : TaskbarShell σ S W) (before : TaskbarLayoutCoordinator σ S W) :
    Option Bool × TaskbarLayoutCoordinator σ S W → Prop
  | next {after : TaskbarLayoutCoordinator σ S W} (temporary : Bool)
      (hprepares : Preparing calls before after) : Tried calls before (some temporary, after)
  | posted {between : TaskbarLayoutCoordinator σ S W} {type : EventType}
      (hprepared : Prepared calls before between type) :
      Tried calls before (none, between.post type false)

theorem Preparing.refl (htransaction : c.transaction = none) (hfate : c.fate = .settled) :
    Preparing calls c c :=
  ⟨⟨Frame.refl c, rfl, id, Nat.le_refl _⟩, htransaction, hfate⟩

theorem Preparing.after {first second third : TaskbarLayoutCoordinator σ S W}
    (hsecond : Preparing calls second third) (hfirst : Forward calls first second) :
    Preparing calls first third :=
  ⟨hfirst.trans hsecond.toForward, hsecond.transaction, hsecond.fate⟩

theorem Tried.after {first second : TaskbarLayoutCoordinator σ S W}
    {result : Option Bool × TaskbarLayoutCoordinator σ S W} (htried : Tried calls second result)
    (hfirst : Forward calls first second) : Tried calls first result := by
  cases htried with
  | next temporary hprepares => exact .next temporary (hprepares.after hfirst)
  | posted hprepared => exact .posted (hprepared.weaken hfirst)

/-- The release of an attachment with its window hidden. -/
theorem detachStrategy_preparing (htransaction : c.transaction = none) (hfate : c.fate = .settled)
    (attachment : ActiveAttachment S W) :
    Preparing calls c
      ((c.hideWindow calls attachment.window).detachStrategy calls attachment.strategy).2 := by
  have hframe : Frame calls c
      ((c.hideWindow calls attachment.window).detachStrategy calls attachment.strategy).2 :=
    (hideWindow_frame c attachment.window).trans (detachStrategy_frame _ attachment.strategy)
  refine ⟨⟨hframe, ?_, ?_, ?_⟩, ?_, ?_⟩
  · rw [detachStrategy_request, hideWindow_request]
  · rw [detachStrategy_attachment, hideWindow_attachment]
    exact id
  · apply Nat.le_of_eq
    apply compatible_congr _ hframe.strategies
    rw [detachStrategy_processIncompatibleStrategies, hideWindow_processIncompatibleStrategies]
  · rw [detachStrategy_transaction, hideWindow_transaction, htransaction]
  · rw [detachStrategy_fate, hideWindow_fate, hfate]
    rfl

/-- A commit that is taken back: the window is hidden, the strategy may be marked, and the
transaction is rolled back. -/
theorem undo_spec {strategy : S} {window : W} {hidden : Bool}
    (hfate : c.fate = .pending strategy window hidden) (hmem : strategy ∈ c.strategies)
    (hcompatible : c.isProcessIncompatible strategy = false) (incompatible : Bool) :
    let undone := (((c.hideWindow calls window).markIf incompatible strategy).rollback calls
      strategy).2
    Frame calls c undone ∧ undone.request = c.request ∧ undone.transaction = c.transaction ∧
      undone.attachment = c.attachment ∧ undone.fate = .settled ∧
      undone.compatible ≤ c.compatible ∧
      (incompatible = true → undone.compatible < c.compatible) := by
  have hhide := @hideWindow_frame σ S W c calls window
  have hmark : Frame calls (c.hideWindow calls window)
      ((c.hideWindow calls window).markIf incompatible strategy) :=
    markIf_frame _ strategy incompatible
  have hroll := @rollback_frame σ S W ((c.hideWindow calls window).markIf incompatible strategy)
    calls strategy
  have hsame : (c.hideWindow calls window).compatible = c.compatible :=
    compatible_congr c hhide.strategies (hideWindow_processIncompatibleStrategies c window)
  have hcount : (((c.hideWindow calls window).markIf incompatible strategy).rollback calls
      strategy).2.compatible =
      ((c.hideWindow calls window).markIf incompatible strategy).compatible :=
    compatible_congr _ hroll.strategies (rollback_processIncompatibleStrategies _ strategy)
  obtain ⟨strategies, hmarked⟩ := markIf_eq (c.hideWindow calls window) strategy incompatible
  refine ⟨(hhide.trans hmark).trans hroll, ?_, ?_, ?_, ?_, ?_, ?_⟩
  · rw [rollback_request, hmarked]
    exact hideWindow_request c window
  · rw [rollback_transaction, hmarked]
    exact hideWindow_transaction c window
  · rw [rollback_attachment, hmarked]
    exact hideWindow_attachment c window
  · have hpending : ((c.hideWindow calls window).markIf incompatible strategy).fate =
        .pending strategy window true := by
      rw [hmarked]
      change (c.hideWindow calls window).fate = _
      rw [hideWindow_fate, hfate, Fate.after, beq_self_eq_true, Bool.or_true]
    rw [rollback_fate, hpending]
    exact if_pos ⟨rfl, rfl⟩
  · rw [hcount, ← hsame, markIf]
    split_ifs
    · exact compatible_mark_le _ strategy
    · exact Nat.le_refl _
  · rintro rfl
    rw [hcount, ← hsame]
    apply compatible_mark_lt
    · rw [hhide.strategies]
      exact hmem
    · rw [isProcessIncompatible, hideWindow_processIncompatibleStrategies]
      exact hcompatible

/-- Without the attachment all else stays as it is. -/
theorem Preparing.withoutAttachment {before after : TaskbarLayoutCoordinator σ S W}
    (hprepares : Preparing calls before after) :
    Preparing calls before { after with attachment := none } :=
  ⟨⟨hprepares.frame.trans (Frame.inner after _ _ _ _ _), hprepares.request, fun _ => rfl,
    hprepares.compatible⟩, hprepares.transaction, hprepares.fate⟩

variable (request : AttachRequest W)

/-- A failed commit is taken back with the window hidden, or an event is posted. -/
theorem takeBack_spec {strategy : S} (htransaction : c.transaction = none) {hidden : Bool}
    (hfate : c.fate = .pending strategy request.window hidden)
    (hattachment : ∀ attachment ∈ c.attachment, attachment.strategy = strategy)
    (hmem : strategy ∈ c.strategies) (hcompatible : c.isProcessIncompatible strategy = false)
    (committed : TaskbarLayoutStrategy.AttachResult) :
    Tried calls c (c.takeBack calls request strategy committed) := by
  have hundone := @undo_spec σ S W _ c calls _ strategy _ hidden hfate hmem hcompatible
    (committed = .incompatible)
  rw [takeBack]
  simp only
  generalize ((c.hideWindow calls request.window).markIf (committed = .incompatible)
    strategy).rollback calls strategy = undone at hundone
  obtain ⟨result, undone⟩ := undone
  obtain ⟨hframe, hrequest, hnone, hkept, hsettled, hle, hlt⟩ := hundone
  simp only at hframe hrequest hnone hkept hsettled hle hlt
  rw [htransaction] at hnone
  have hfiltered : undone.attachment.filter (·.strategy != strategy) = none := by
    rw [hkept, Option.filter_eq_none_iff]
    intro attachment hmem' hne
    rw [hattachment attachment hmem', bne_self_eq_false] at hne
    cases hne
  have hreleased : Preparing calls c { undone with attachment := none } :=
    ⟨⟨hframe.trans (Frame.inner undone _ _ _ _ _), hrequest, fun _ => rfl, hle⟩, hnone, hsettled⟩
  cases result with
  | failed =>
      exact .posted ⟨hframe.trans (Frame.inner undone _ _ _ _ _), hrequest, hle,
        .needsDetach rfl hnone hsettled⟩
  | detached =>
      simp only [hfiltered]
      exact .next _ hreleased
  | nativeWindowDestroyed =>
      simp only [hfiltered]
      refine .posted ⟨hreleased.frame, hrequest, hle, ?_⟩
      rw [afterTakeBack]
      have hretry : { undone with attachment := none }.recreateForRetry = c.recreateForRetry := by
        rw [recreateForRetry, recreateForRetry, hreleased.frame.state]
      split_ifs with hincompatible
      · rw [hretry]
        exact .retry rfl hnone hsettled fun _ => hlt (decide_eq_true hincompatible)
      · exact .ended (by simp) rfl hnone hsettled
      · exact .ended (by simp) rfl hnone hsettled

/-- A strategy that is ready attaches the window, or all is as before, or an event tells
why not. -/
theorem commitReady_spec {strategy : S} (hrequested : c.request = some request)
    (htransaction : c.transaction = none)
    (hfate : c.fate = .settled)
    (hattachment : ∀ attachment ∈ c.attachment, attachment.strategy = strategy)
    (hmem : strategy ∈ c.strategies) (hcompatible : c.isProcessIncompatible strategy = false) :
    Tried calls c (c.commitReady calls request strategy) := by
  have hframe := @commit_frame σ S W c calls request.window strategy
  have hrequest := @commit_request σ S W c calls request.window strategy
  have hnone := (@commit_transaction σ S W c calls request.window strategy).trans htransaction
  have hkept := @commit_attachment σ S W c calls request.window strategy
  have hincompatible := @commit_processIncompatibleStrategies σ S W c calls request.window strategy
  have hpending : (c.commit calls request.window strategy).2.fate = .pending strategy request.window false := by
    rw [commit_fate, hfate]
    rfl
  rw [commitReady]
  generalize c.commit calls request.window strategy = committed at *
  obtain ⟨result, committed⟩ := committed
  simp only at hframe hrequest hnone hkept hincompatible hpending
  have hsame : committed.compatible = c.compatible :=
    compatible_congr c hframe.strategies hincompatible
  have hmem' : strategy ∈ committed.strategies := by
    rw [hframe.strategies]
    exact hmem
  have hcompatible' : committed.isProcessIncompatible strategy = false := by
    rw [isProcessIncompatible, hincompatible]
    exact hcompatible
  have hforward : Forward calls c committed :=
    ⟨hframe, hrequest, fun hbefore => hkept.trans hbefore, Nat.le_of_eq hsame⟩
  -- whatever has failed is taken back
  have hfailed : ∀ failed, Tried calls c (committed.takeBack calls request strategy failed) :=
    fun failed => (takeBack_spec committed request hnone hpending (by rwa [hkept]) hmem'
      hcompatible' failed).after hforward
  cases result with
  | attached =>
      refine .posted ⟨hframe.trans (Frame.inner committed _ _ _ _ _), hrequest,
        Nat.le_of_eq hsame, ?_⟩
      exact .prepared ⟨rfl, rfl, rfl, hrequest.trans hrequested, hmem', hcompatible', false, hpending⟩
  | temporarilyUnavailable => exact hfailed _
  | incompatible => exact hfailed _
  | invalid => exact hfailed _

/-- A call of the shell goes on with the same state of things. -/
theorem call_preparing (htransaction : c.transaction = none) (hfate : c.fate = .settled)
    {α : Type*} {answer : σ → Reply σ W α} (heffect : calls.Effect c.shell (answer c.shell).effect) :
    Preparing calls c (c.call answer).2 := by
  have hframe := call_frame c answer heffect
  refine ⟨⟨hframe, call_request c answer, ?_, ?_⟩, ?_, ?_⟩
  · rw [call_attachment]
    exact id
  · apply Nat.le_of_eq
    exact compatible_congr c hframe.strategies (call_processIncompatibleStrategies c answer)
  · rw [call_transaction, htransaction]
  · rw [call_fate, hfate]

theorem giveUp_spec (htransaction : c.transaction = none) (hfate : c.fate = .settled)
    (hattachment : c.attachment = none) (temporary : Bool) :
    ∃ type, c.giveUp temporary = c.post type false ∧ PrepareResult c c type := by
  refine ⟨_, rfl, .ended ?_ hattachment htransaction hfate⟩
  split_ifs <;> simp

theorem needsDetachOrFailed_spec (htransaction : c.transaction = none) (hfate : c.fate = .settled) :
    PrepareResult c c c.needsDetachOrFailed := by
  rw [needsDetachOrFailed, htransaction, Option.isSome_none, Bool.or_false]
  cases hattachment : c.attachment with
  | none => exact .ended (by simp) hattachment htransaction hfate
  | some attachment =>
      exact .needsDetach (by rw [hattachment, Option.isSome_some]) htransaction hfate

/-- An attachment of another strategy or window is released, or an event is posted. -/
theorem releaseOther_spec (htransaction : c.transaction = none) (hfate : c.fate = .settled)
    (strategy : S) :
    (∃ after, c.releaseOther calls request strategy = (true, after) ∧ Preparing calls c after ∧
      after.processIncompatibleStrategies = c.processIncompatibleStrategies ∧
      ∀ attachment ∈ after.attachment, attachment.strategy = strategy) ∨
    ∃ between type, c.releaseOther calls request strategy = (false, between.post type false) ∧
      Prepared calls c between type := by
  rw [releaseOther]
  cases hattachment : c.attachment with
  | none =>
      refine Or.inl ⟨c, rfl, Preparing.refl c htransaction hfate, rfl, ?_⟩
      rw [hattachment]
      rintro _ ⟨⟩
  | some attachment =>
      simp only
      by_cases hserves : c.attachmentServes calls request strategy = true
      · rw [if_pos hserves]
        refine Or.inl ⟨c, rfl, Preparing.refl c htransaction hfate, rfl, ?_⟩
        intro other hother
        rw [hattachment] at hother
        cases hother
        rw [attachmentServes, hattachment, Option.any_some, Bool.and_eq_true, beq_iff_eq]
          at hserves
        exact hserves.1
      · rw [if_neg hserves]
        have hprepares := @detachStrategy_preparing σ S W _ c calls _ htransaction hfate attachment
        have hkept : ((c.hideWindow calls attachment.window).detachStrategy calls
            attachment.strategy).2.attachment = some attachment := by
          rw [detachStrategy_attachment, hideWindow_attachment, hattachment]
        have hmarked : ((c.hideWindow calls attachment.window).detachStrategy calls
            attachment.strategy).2.processIncompatibleStrategies =
              c.processIncompatibleStrategies := by
          rw [detachStrategy_processIncompatibleStrategies,
            hideWindow_processIncompatibleStrategies]
        generalize (c.hideWindow calls attachment.window).detachStrategy calls
          attachment.strategy = released at hprepares hkept hmarked
        rcases released with ⟨_ | _ | _, released⟩
        · exact Or.inl ⟨_, rfl, hprepares.withoutAttachment, hmarked, by rintro _ ⟨⟩⟩
        · right
          have hnone := hprepares.withoutAttachment
          refine ⟨_, _, rfl, hnone.frame, hnone.request, hnone.compatible, ?_⟩
          have hretry : released.recreateForRetry = c.recreateForRetry := by
            rw [recreateForRetry, recreateForRetry, hprepares.frame.state]
          rw [hretry]
          refine .retry rfl hnone.transaction hnone.fate fun hbefore => ?_
          rw [hattachment] at hbefore
          cases hbefore
        · right
          refine ⟨_, _, rfl, hprepares.frame.trans (Frame.inner released _ _ _ _ _),
            hprepares.request, hprepares.compatible, ?_⟩
          refine .needsDetach ?_ hprepares.transaction hprepares.fate
          change released.attachment.isSome = true
          rw [hkept, Option.isSome_some]

theorem tryStrategy_spec {strategy : S} (hrequested : c.request = some request)
    (htransaction : c.transaction = none)
    (hfate : c.fate = .settled) (hmem : strategy ∈ c.strategies)
    (hcompatible : c.isProcessIncompatible strategy = false) :
    Tried calls c (c.tryStrategy calls request strategy) := by
  have hprepares : Preparing calls c
      (c.call (calls.prepareAttach strategy (c.pointer calls request.window))).2 :=
    call_preparing c htransaction hfate (.prepareAttach strategy _)
  have hincompatible := @call_processIncompatibleStrategies σ S W c _
    (calls.prepareAttach strategy (c.pointer calls request.window))
  have hkept := @call_attachment σ S W c _
    (calls.prepareAttach strategy (c.pointer calls request.window))
  rw [tryStrategy]
  generalize c.call (calls.prepareAttach strategy (c.pointer calls request.window)) = made at *
  obtain ⟨readiness, made⟩ := made
  simp only at hprepares hincompatible hkept
  cases readiness with
  | none => exact .next false hprepares
  | some readiness =>
      cases readiness with
      | unavailable => exact .next false hprepares
      | temporarilyUnavailable =>
          simp only
          split_ifs with hserves
          · refine .posted ⟨hprepares.frame, hprepares.request, hprepares.compatible, ?_⟩
            rw [attachmentServes] at hserves
            have hattached : made.attachment.isSome := by
              cases hattachment : made.attachment with
              | none =>
                  rw [hattachment] at hserves
                  cases hserves
              | some attachment => rfl
            exact .retained (hkept ▸ hattached) hattached hprepares.transaction hprepares.fate
          · exact .next true hprepares
      | ready =>
          simp only
          rcases releaseOther_spec made request hprepares.transaction hprepares.fate strategy with
            ⟨after, hreleased, hafter, hmarked, hattachment⟩ | ⟨between, type, hreleased, hprepared⟩
          · rw [hreleased]
            have hforward := hafter.after hprepares.toForward
            refine (commitReady_spec after request (hforward.request.trans hrequested)
              hafter.transaction hafter.fate hattachment ?_ ?_).after hforward.toForward
            · rw [hforward.frame.strategies]
              exact hmem
            · rw [isProcessIncompatible, hmarked, hincompatible]
              exact hcompatible
          · rw [hreleased]
            exact .posted (hprepared.weaken hprepares.toForward)

theorem releaseLast_spec (htransaction : c.transaction = none) (hfate : c.fate = .settled)
    (temporary : Bool) :
    ∃ between type, c.releaseLast calls temporary = between.post type false ∧
      Prepared calls c between type := by
  rw [releaseLast]
  cases hattachment : c.attachment with
  | none =>
      obtain ⟨type, hgiven, hresult⟩ := giveUp_spec c htransaction hfate hattachment temporary
      exact ⟨c, type, hgiven, Frame.refl c, rfl, Nat.le_refl _, hresult⟩
  | some attachment =>
      have hprepares := @detachStrategy_preparing σ S W _ c calls _ htransaction hfate attachment
      have hkept : ((c.hideWindow calls attachment.window).detachStrategy calls
          attachment.strategy).2.attachment = some attachment := by
        rw [detachStrategy_attachment, hideWindow_attachment, hattachment]
      simp only
      generalize (c.hideWindow calls attachment.window).detachStrategy calls
        attachment.strategy = released at hprepares hkept
      obtain ⟨result, released⟩ := released
      simp only at hprepares hkept
      have hnone := hprepares.withoutAttachment
      cases result with
      | detached =>
          obtain ⟨type, hgiven, hresult⟩ := giveUp_spec { released with attachment := none }
            hnone.transaction hnone.fate rfl temporary
          exact ⟨_, type, hgiven, hnone.frame, hnone.request, hnone.compatible,
            hresult.weaken hnone.toForward⟩
      | nativeWindowDestroyed =>
          refine ⟨_, _, rfl, hnone.frame, hnone.request, hnone.compatible, ?_⟩
          exact .ended (by simp) rfl hnone.transaction hnone.fate
      | failed =>
          refine ⟨_, _, rfl, hprepares.frame, hprepares.request, hprepares.compatible, ?_⟩
          exact .needsDetach (by rw [hkept, Option.isSome_some]) hprepares.transaction
            hprepares.fate

/-- The strategies are tried in their order until one posts the result. -/
theorem tryStrategies_spec {strategies : List S} (hstrategies : strategies ⊆ c.strategies)
    (hrequested : c.request = some request) (htransaction : c.transaction = none) (hfate : c.fate = .settled) (temporary : Bool) :
    ∃ between type, tryStrategies calls request strategies temporary c = between.post type false ∧
      Prepared calls c between type := by
  induction strategies generalizing c temporary with
  | nil => exact releaseLast_spec c htransaction hfate temporary
  | cons strategy rest ih =>
      have hmem : strategy ∈ c.strategies := hstrategies List.mem_cons_self
      have hrest : rest ⊆ c.strategies := fun other hother =>
        hstrategies (List.mem_cons_of_mem _ hother)
      rw [tryStrategies]
      by_cases hincompatible : c.isProcessIncompatible strategy = true
      · rw [if_pos hincompatible]
        exact ih c hrest hrequested htransaction hfate temporary
      · rw [if_neg hincompatible]
        have htried := @tryStrategy_spec σ S W _ c calls _ request strategy hrequested htransaction hfate hmem
          (Bool.eq_false_iff.2 hincompatible)
        generalize c.tryStrategy calls request strategy = result at htried
        cases htried with
        | @next after failed hprepares =>
            obtain ⟨between, type, htried, hprepared⟩ := ih after
              (by rwa [hprepares.frame.strategies]) (hprepares.request.trans hrequested) hprepares.transaction hprepares.fate
              (temporary || failed)
            exact ⟨between, type, htried, hprepared.weaken hprepares.toForward⟩
        | posted hprepared => exact ⟨_, _, rfl, hprepared⟩

/-- Whatever the strategies answer, `runPrepare` posts one result. -/
theorem runPrepare_spec (htransaction : c.transaction = none) (hfate : c.fate = .settled) :
    ∃ between type, c.runPrepare calls = between.post type false ∧
      Prepared calls c between type := by
  have hfailed : Prepared calls c c c.needsDetachOrFailed :=
    ⟨Frame.refl c, rfl, Nat.le_refl _, needsDetachOrFailed_spec c htransaction hfate⟩
  rw [runPrepare]
  cases hrequested : c.request with
  | none => exact ⟨c, _, rfl, hfailed⟩
  | some request =>
      simp only
      split_ifs
      · exact tryStrategies_spec c request (List.Subset.refl _) hrequested htransaction hfate false
      · exact ⟨c, _, rfl, hfailed⟩

/-! ## `runFinalize` -/

/-- Whatever has been committed is settled, or its transaction is held with its window. -/
def Secured : Prop :=
  match c.transaction with
  | none => c.fate = .settled
  | some strategy => ∃ attachment ∈ c.attachment,
      c.fate = .settled ∨ ∃ hidden, c.fate = .pending strategy attachment.window hidden

theorem Ready.secured {strategy : S} {window : W} (hready : c.Ready strategy window) :
    c.Secured := by
  rw [Secured, hready.transaction]
  exact ⟨_, hready.attachment, Or.inr hready.fate⟩

theorem secured_of_settled (htransaction : c.transaction = none) (hfate : c.fate = .settled) :
    c.Secured := by
  rw [Secured, htransaction]
  exact hfate

/-- What is held when `runFinalize` posts its result. -/
inductive FinalizeResult (before after : TaskbarLayoutCoordinator σ S W) : EventType → Prop
  | attached (hattachment : after.attachment.isSome) (hfate : after.fate = .settled) :
      FinalizeResult before after .operationAttached
  | ended {type : EventType}
      (htype : type ∈ [.operationTemporary, .operationIncompatible, .operationFailed,
        .operationRecreateFailure, .operationRecreateIncompatible])
      (hattachment : after.attachment = none) (htransaction : after.transaction = none)
      (hfate : after.fate = .settled) : FinalizeResult before after type
  | retry {type : EventType}
      (htype : type ∈ [.operationRetryPrepare, .operationRecreateActivation])
      (hattachment : after.attachment = none) (htransaction : after.transaction = none)
      (hfate : after.fate = .settled) (hfewer : after.compatible < before.compatible) :
      FinalizeResult before after type
  | needsDetach (hsecured : after.Secured) : FinalizeResult before after .operationNeedsDetach

structure Finalized (calls : TaskbarShell σ S W) (before between : TaskbarLayoutCoordinator σ S W)
    (type : EventType) : Prop where
  frame : Frame calls before between
  compatible : between.compatible ≤ before.compatible
  result : FinalizeResult before between type

/-- The window of a prepared transaction is shown. -/
theorem show_ready {strategy : S} {window : W} (hready : c.Ready strategy window) :
    Frame calls c ((c.record (.shown window)).call (calls.showWindow window)).2 ∧
      Ready ((c.record (.shown window)).call (calls.showWindow window)).2 strategy window := by
  have hframe : Frame calls c ((c.record (.shown window)).call (calls.showWindow window)).2 :=
    have hshown : (LogEntry.shown window : LogEntry S W).IsQuiet := trivial
    (Frame.record c hshown (by rintro _ ⟨⟩)).trans (call_frame _ _ (.showWindow window))
  obtain ⟨hidden, hfate⟩ := hready.fate
  refine ⟨hframe, (call_attachment _ _).trans hready.attachment,
    (call_transaction _ _).trans hready.transaction,
    (call_preparedStrategy _ _).trans hready.preparedStrategy,
    (call_request _ _).trans hready.request, ?_, ?_, hidden && window != window, ?_⟩
  · rw [hframe.strategies]
    exact hready.mem
  · rw [isProcessIncompatible, call_processIncompatibleStrategies]
    exact hready.compatible
  · rw [call_fate, fate_record, hfate]
    rfl

/-- The answer of `finalize`: the transaction is settled or still pending. -/
theorem finalize_ready {strategy : S} {window : W} (hready : c.Ready strategy window) :
    let answered := c.call (calls.finalize strategy)
    let finalized := answered.2.record (.finalized strategy answered.1)
    Frame calls c finalized ∧ finalized.compatible = c.compatible ∧
      if answered.1 = .attached then finalized.attachment.isSome ∧ finalized.fate = .settled
      else finalized.Ready strategy window := by
  intro answered finalized
  have hframe : Frame calls c finalized :=
    (call_frame c _ (.finalize strategy)).trans (Frame.record _ trivial (by rintro _ ⟨⟩))
  have hincompatible : finalized.processIncompatibleStrategies = c.processIncompatibleStrategies :=
    call_processIncompatibleStrategies c _
  have hattachment : finalized.attachment = some ⟨strategy, window⟩ :=
    (call_attachment c _).trans hready.attachment
  obtain ⟨hidden, hfate⟩ := hready.fate
  have hafter : finalized.fate = if answered.1 = .attached then .settled
      else .pending strategy window hidden := by
    calc finalized.fate
        = answered.2.fate.after (.finalized strategy answered.1) := fate_record _ _
      _ = (Fate.pending strategy window hidden).after (.finalized strategy answered.1) := by
          rw [call_fate, hfate]
      _ = _ := if_pos rfl
  refine ⟨hframe, compatible_congr c hframe.strategies hincompatible, ?_⟩
  split_ifs with hattached
  · rw [hattachment, hafter, if_pos hattached]
    exact ⟨rfl, rfl⟩
  · rw [if_neg hattached] at hafter
    refine ⟨hattachment, (call_transaction c _).trans hready.transaction,
      (call_preparedStrategy c _).trans hready.preparedStrategy,
      (call_request c _).trans hready.request, ?_, ?_, hidden, hafter⟩
    · rw [hframe.strategies]
      exact hready.mem
    · rw [isProcessIncompatible, hincompatible]
      exact hready.compatible

theorem afterRollback_result {before : TaskbarLayoutCoordinator σ S W}
    (finalized : TaskbarLayoutStrategy.AttachResult) (windowDestroyed : Bool)
    (hattachment : c.attachment = none) (htransaction : c.transaction = none)
    (hfate : c.fate = .settled)
    (hfewer : finalized = .incompatible → c.compatible < before.compatible) :
    FinalizeResult before c (c.afterRollback finalized windowDestroyed) := by
  rw [afterRollback]
  split_ifs with hincompatible
  · exact .retry (by simp) hattachment htransaction hfate (hfewer hincompatible)
  · exact .retry (by simp) hattachment htransaction hfate (hfewer hincompatible)
  · exact .ended (by simp) hattachment htransaction hfate
  · exact .ended (by simp) hattachment htransaction hfate
  · exact .ended (by simp) hattachment htransaction hfate
  · exact .ended (by simp) hattachment htransaction hfate
  · exact .ended (by simp) hattachment htransaction hfate

/-- Whatever the window and the transaction answer, `runFinalize` posts one result. -/
theorem runFinalize_spec {strategy : S} {window : W} (hready : c.Ready strategy window) :
    ∃ between type, c.runFinalize calls = between.post type false ∧
      Finalized calls c between type := by
  have hfailed : Finalized calls c c c.needsDetachOrFailed := by
    rw [needsDetachOrFailed, hready.attachment, Option.isSome_some, Bool.true_or, if_pos rfl]
    exact ⟨Frame.refl c, Nat.le_refl _, .needsDetach hready.secured⟩
  rw [runFinalize, hready.request, hready.transaction]
  simp only
  split_ifs
  swap
  · exact ⟨c, _, rfl, hfailed⟩
  obtain ⟨hshow, hshown⟩ := @show_ready σ S W _ c calls _ strategy window hready
  rw [finalizeTransaction]
  simp only
  have hsame : (((c.record (.shown window)).call (calls.showWindow window)).2).compatible =
      c.compatible :=
    compatible_congr c hshow.strategies (call_processIncompatibleStrategies _ _)
  generalize ((c.record (.shown window)).call (calls.showWindow window)).2 = shown at *
  have hanswer := @finalize_ready σ S W _ shown calls _ strategy window hshown
  generalize shown.call (calls.finalize strategy) = answered at *
  obtain ⟨result, answered⟩ := answered
  simp only at hanswer ⊢
  obtain ⟨hfinalize, hsame', hresult⟩ := hanswer
  generalize answered.record (.finalized strategy result) = finalized at *
  have hframe : Frame calls c finalized := hshow.trans hfinalize
  have hcompatible : finalized.compatible = c.compatible := hsame'.trans hsame
  by_cases hattached : result = .attached
  · rw [if_pos hattached] at hresult ⊢
    exact ⟨finalized, _, rfl, hframe, Nat.le_of_eq hcompatible, .attached hresult.1 hresult.2⟩
  rw [if_neg hattached] at hresult ⊢
  have hmark : (finalized.hideWindow calls window).markPrepared result =
      (finalized.hideWindow calls window).markIf (result = .incompatible) strategy := by
    rw [markPrepared, hideWindow_preparedStrategy, hresult.preparedStrategy]
  rw [hmark]
  obtain ⟨hidden, hfate⟩ := hresult.fate
  have hundone := @undo_spec σ S W _ finalized calls _ strategy window hidden hfate hresult.mem
    hresult.compatible (result = .incompatible)
  generalize ((finalized.hideWindow calls window).markIf (result = .incompatible)
    strategy).rollback calls strategy = undone at hundone ⊢
  obtain ⟨rolledBack, undone⟩ := undone
  simp only at hundone ⊢
  obtain ⟨hundo, -, -, -, hsettled, hle, hlt⟩ := hundone
  rw [hcompatible] at hle hlt
  split_ifs
  · refine ⟨_, _, rfl, (hframe.trans hundo).trans (Frame.inner undone _ _ _ _ _), hle, ?_⟩
    exact .needsDetach (secured_of_settled _ rfl hsettled)
  · refine ⟨_, _, rfl, (hframe.trans hundo).trans (Frame.inner undone _ _ _ _ _), hle, ?_⟩
    refine afterRollback_result _ _ _ rfl rfl ?_ ?_
    · exact hsettled
    · intro hincompatible
      exact hlt (decide_eq_true hincompatible)

end TaskbarLayoutCoordinator

end UwfManager
