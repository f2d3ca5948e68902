import UwfManager.Overlay.CoordinatorTransitions

/-!
# What the operations of the coordinator tell of a destroyed window

A strategy that is detached or rolled back may answer that the native window is gone.  An
operation to which this happens commits nothing after it and ends with a result that asks
for a new window.
-/

namespace UwfManager

open TaskbarLayoutStrategy (AttachReadiness DetachResult)

namespace TaskbarLayoutCoordinator

variable {σ S W : Type*}

/-- The answers after which the native window is gone. -/
def LogEntry.destroys : LogEntry S W → Bool
  | rolledBack _ result | detached _ result | invalidated _ result =>
      result = .nativeWindowDestroyed
  | _ => false

/-- What may not happen while the native window is gone: another commit, and the notice of a
completed detachment. -/
def LogEntry.closes : LogEntry S W → Bool
  | committed _ _ _ => true
  | published event => event.phase = .completed
  | _ => false

/-- The results of an operation that ask for a new window. -/
def recreatingTypes : List EventType :=
  [.operationRecreatePrepare, .operationRecreateActivation, .operationRecreateFailure,
    .operationRecreateIncompatible]

/-- Every request that waits has a window. -/
def Supplied (c : TaskbarLayoutCoordinator σ S W) : Prop :=
  ∀ event ∈ c.events, event.type = .acquireRequested → event.attachRequest.isSome

/-- The state, the detachment and the request are kept. -/
structure Steady (before after : TaskbarLayoutCoordinator σ S W) : Prop where
  state : after.state = before.state
  detaching : after.detaching = before.detaching
  request : after.request = before.request
  supplied : before.Supplied → after.Supplied

/-- No window has been destroyed. -/
structure Clean (before after : TaskbarLayoutCoordinator σ S W) : Prop where
  steady : Steady before after
  log : ∃ added, after.log = before.log ++ added ∧ ∀ entry ∈ added, entry.destroys = false

/-- A release with its answer. -/
structure Released (before after : TaskbarLayoutCoordinator σ S W) (result : DetachResult) :
    Prop where
  steady : Steady before after
  log : ∃ added, after.log = before.log ++ added ∧ (∀ entry ∈ added, entry.closes = false) ∧
    (result ≠ .nativeWindowDestroyed → ∀ entry ∈ added, entry.destroys = false)

/-- The run of an operation up to its result: once a window is destroyed nothing is
committed, and the result asks for a new one. -/
structure Told (before between : TaskbarLayoutCoordinator σ S W) (type : EventType) : Prop where
  result : type.isArrival = false
  steady : Steady before between
  log : ∃ front back, between.log = before.log ++ (front ++ back) ∧
    (∀ entry ∈ front, entry.destroys = false) ∧ (∀ entry ∈ back, entry.closes = false) ∧
    ((∃ entry ∈ back, entry.destroys = true) → type ∈ recreatingTypes)

variable {first second third : TaskbarLayoutCoordinator σ S W}

theorem Steady.refl (c : TaskbarLayoutCoordinator σ S W) : Steady c c := ⟨rfl, rfl, rfl, id⟩

theorem Steady.trans (hfirst : Steady first second) (hsecond : Steady second third) :
    Steady first third :=
  ⟨hsecond.state.trans hfirst.state, hsecond.detaching.trans hfirst.detaching,
    hsecond.request.trans hfirst.request,
    fun hsupplied => hsecond.supplied (hfirst.supplied hsupplied)⟩

theorem Clean.refl (c : TaskbarLayoutCoordinator σ S W) : Clean c c :=
  ⟨Steady.refl c, [], (List.append_nil _).symm, fun _ hentry => absurd hentry List.not_mem_nil⟩

theorem Clean.trans (hfirst : Clean first second) (hsecond : Clean second third) :
    Clean first third := by
  obtain ⟨added, hlog, hadded⟩ := hfirst.log
  obtain ⟨more, hlog', hmore⟩ := hsecond.log
  refine ⟨hfirst.steady.trans hsecond.steady, added ++ more, ?_, ?_⟩
  · rw [hlog', hlog, List.append_assoc]
  · intro entry hentry
    exact (List.mem_append.1 hentry).elim (hadded entry) (hmore entry)

/-- What is held is no part of it. -/
theorem Steady.inner (c : TaskbarLayoutCoordinator σ S W) (incompatible : List S)
    (attachment : Option (ActiveAttachment S W)) (preparedStrategy transaction : Option S) :
    Steady c { c with
      processIncompatibleStrategies := incompatible
      attachment := attachment
      preparedStrategy := preparedStrategy
      transaction := transaction } :=
  ⟨rfl, rfl, rfl, id⟩

theorem Clean.inner (c : TaskbarLayoutCoordinator σ S W) (incompatible : List S)
    (attachment : Option (ActiveAttachment S W)) (preparedStrategy transaction : Option S) :
    Clean c { c with
      processIncompatibleStrategies := incompatible
      attachment := attachment
      preparedStrategy := preparedStrategy
      transaction := transaction } :=
  ⟨Steady.inner c _ _ _ _, [], (List.append_nil _).symm,
    fun _ hentry => absurd hentry List.not_mem_nil⟩

theorem Told.after {type : EventType} (htold : Told second third type)
    (hclean : Clean first second) : Told first third type := by
  obtain ⟨added, hlog, hadded⟩ := hclean.log
  obtain ⟨front, back, hlog', hfront, hback, htype⟩ := htold.log
  refine ⟨htold.result, hclean.steady.trans htold.steady, added ++ front, back, ?_, ?_, hback, htype⟩
  · rw [hlog', hlog, List.append_assoc, List.append_assoc]
  · intro entry hentry
    exact (List.mem_append.1 hentry).elim (hadded entry) (hfront entry)

/-- An operation to which nothing has happened may end with any result. -/
theorem Clean.told (hclean : Clean first second) {type : EventType}
    (hresult : type.isArrival = false) : Told first second type := by
  obtain ⟨added, hlog, hadded⟩ := hclean.log
  refine ⟨hresult, hclean.steady, added, [], ?_, hadded,
    fun _ hentry => absurd hentry List.not_mem_nil, ?_⟩
  · rw [hlog, List.append_nil]
  · rintro ⟨_, hentry, -⟩
    cases hentry

theorem Released.clean {result : DetachResult} (hreleased : Released first second result)
    (hresult : result ≠ .nativeWindowDestroyed) : Clean first second := by
  obtain ⟨added, hlog, -, hadded⟩ := hreleased.log
  exact ⟨hreleased.steady, added, hlog, hadded hresult⟩

theorem Released.told {result : DetachResult} (hreleased : Released first second result)
    {type : EventType} (htype : type ∈ recreatingTypes) : Told first second type := by
  obtain ⟨added, hlog, hadded, -⟩ := hreleased.log
  have hresult : type.isArrival = false := by
    simp only [recreatingTypes, List.mem_cons, List.not_mem_nil, or_false] at htype
    rcases htype with rfl | rfl | rfl | rfl <;> rfl
  exact ⟨hresult, hreleased.steady, [], added, hlog,
    fun _ hentry => absurd hentry List.not_mem_nil, hadded, fun _ => htype⟩

theorem Released.trans {result : DetachResult} (hfirst : Released first second .detached)
    (hsecond : Released second third result) : Released first third result := by
  obtain ⟨added, hlog, hadded, hclean⟩ := hfirst.log
  obtain ⟨more, hlog', hmore, hclean'⟩ := hsecond.log
  refine ⟨hfirst.steady.trans hsecond.steady, added ++ more, ?_, ?_, ?_⟩
  · rw [hlog', hlog, List.append_assoc]
  · intro entry hentry
    exact (List.mem_append.1 hentry).elim (hadded entry) (hmore entry)
  · intro hresult entry hentry
    exact (List.mem_append.1 hentry).elim (hclean (by rintro ⟨⟩) entry) (hclean' hresult entry)

/-- A result is posted with whatever is held then. -/
theorem Told.inner {type : EventType} (htold : Told first second type) (incompatible : List S)
    (attachment : Option (ActiveAttachment S W)) (preparedStrategy transaction : Option S) :
    Told first { second with
      processIncompatibleStrategies := incompatible
      attachment := attachment
      preparedStrategy := preparedStrategy
      transaction := transaction } type :=
  ⟨htold.result, htold.steady.trans (Steady.inner second _ _ _ _), htold.log⟩

variable (c : TaskbarLayoutCoordinator σ S W) {calls : TaskbarShell σ S W}

/-! ## One answer -/

theorem Supplied.concat {event : Event W} (hsupplied : first.Supplied)
    (hevents : second.events = first.events ++ [event])
    (hevent : event.type = .acquireRequested → event.attachRequest.isSome) : second.Supplied := by
  intro other hother hacquire
  rw [hevents] at hother
  rcases List.mem_append.1 hother with hother | hother
  · exact hsupplied other hother hacquire
  · rw [List.mem_singleton.1 hother] at hacquire ⊢
    exact hevent hacquire

theorem Supplied.post {c : TaskbarLayoutCoordinator σ S W} (hsupplied : c.Supplied)
    {type : EventType} (hresult : type.isArrival = false) (windowDestroyed : Bool) :
    (c.post type windowDestroyed).Supplied := by
  refine hsupplied.concat rfl fun hacquire => ?_
  change type = .acquireRequested at hacquire
  rw [hacquire] at hresult
  cases hresult

theorem raise_supplied (arrival : Arrival W) (hsupplied : c.Supplied) :
    (c.raise arrival).Supplied := by
  cases arrival with
  | prepareAttach window =>
      cases window with
      | none => exact hsupplied
      | some window => exact hsupplied.concat rfl fun _ => rfl
  | activatePrepared => exact hsupplied.concat rfl (by rintro ⟨⟩)
  | detach =>
      rw [raise]
      split_ifs
      · exact hsupplied
      · exact hsupplied.concat rfl (by rintro ⟨⟩)
  | hostInvalidated => exact hsupplied.concat rfl (by rintro ⟨⟩)
  | timeout =>
      rw [raise]
      split_ifs
      · exact hsupplied.concat rfl (by rintro ⟨⟩)
      · exact hsupplied

section Call

variable {α : Type*} (answer : σ → Reply σ W α)

/-- Meanwhile hosts may have been invalidated, and nothing else is recorded. -/
theorem call_log : ∃ added, (c.call answer).2.log = c.log ++ added ∧
    ∀ entry ∈ added, entry.destroys = false ∧ entry.closes = false := by
  obtain ⟨added, hlog, hadded, -⟩ := (call_arrived c answer).log
  refine ⟨added, hlog, fun entry hentry => ?_⟩
  obtain ⟨holding, rfl⟩ := hadded entry hentry
  exact ⟨rfl, rfl⟩

theorem call_supplied (hsupplied : c.Supplied) : (c.call answer).2.Supplied := by
  have hraised : ∀ (arrivals : List (Arrival W)) (c : TaskbarLayoutCoordinator σ S W),
      c.Supplied → (arrivals.foldl raise c).Supplied := by
    intro arrivals
    induction arrivals with
    | nil => exact fun _ hsupplied => hsupplied
    | cons arrival rest ih => exact fun c hsupplied => ih _ (raise_supplied c arrival hsupplied)
  exact hraised _ _ hsupplied

theorem call_steady : Steady c (c.call answer).2 := by
  obtain ⟨_, _, _, _, hsame⟩ := call_eq c answer
  exact ⟨by rw [hsame], by rw [hsame], by rw [hsame], call_supplied c answer⟩

theorem call_clean : Clean c (c.call answer).2 := by
  obtain ⟨added, hlog, hadded⟩ := call_log c answer
  exact ⟨call_steady c answer, added, hlog,
    fun entry hentry => (hadded entry hentry).1⟩

/-- An answer that is recorded as a release. -/
theorem call_released {result : DetachResult} {entry : LogEntry S W} (hcloses : entry.closes = false)
    (hdestroys : result ≠ .nativeWindowDestroyed → entry.destroys = false) :
    Released c ((c.call answer).2.record entry) result := by
  obtain ⟨added, hlog, hadded⟩ := call_log c answer
  refine ⟨(call_steady c answer).trans ⟨rfl, rfl, rfl, id⟩, added ++ [entry], ?_, ?_, ?_⟩
  · rw [record, hlog, List.append_assoc]
  · intro other hother
    rcases List.mem_append.1 hother with hother | hother
    · exact (hadded other hother).2
    · rw [List.mem_singleton.1 hother]
      exact hcloses
  · intro hresult other hother
    rcases List.mem_append.1 hother with hother | hother
    · exact (hadded other hother).1
    · rw [List.mem_singleton.1 hother]
      exact hdestroys hresult

end Call

theorem record_clean {entry : LogEntry S W} (hentry : entry.destroys = false) :
    Clean c (c.record entry) := by
  refine ⟨⟨rfl, rfl, rfl, id⟩, [entry], rfl, fun other hother => ?_⟩
  rw [List.mem_singleton.1 hother]
  exact hentry

theorem hideWindow_clean (window : W) : Clean c (c.hideWindow calls window) :=
  (record_clean c rfl).trans (call_clean _ _)

theorem commit_clean (window : W) (strategy : S) : Clean c (c.commit calls window strategy).2 :=
  (call_clean c _).trans (record_clean _ rfl)

theorem rollback_released (strategy : S) :
    Released c (c.rollback calls strategy).2 (c.rollback calls strategy).1 :=
  call_released c _ rfl fun hresult => decide_eq_false hresult

theorem detachStrategy_released (strategy : S) :
    Released c (c.detachStrategy calls strategy).2 (c.detachStrategy calls strategy).1 :=
  call_released c _ rfl fun hresult => decide_eq_false hresult

/-! ## Detaching -/

theorem hideWindow_released (window : W) :
    Released c (c.hideWindow calls window) .detached := by
  obtain ⟨added, hlog, hadded⟩ := call_log (c.record (.hidden window)) (calls.hideWindow window)
  refine ⟨(hideWindow_clean c window).steady, .hidden window :: added, ?_, ?_, ?_⟩
  · rw [hideWindow, hlog, record, List.append_assoc]
    rfl
  · rintro entry (_ | ⟨_, hentry⟩)
    · rfl
    · exact (hadded entry hentry).2
  · rintro - entry (_ | ⟨_, hentry⟩)
    · rfl
    · exact (hadded entry hentry).1

theorem hideAttachment_released : Released c (c.hideAttachment calls) .detached := by
  rw [hideAttachment]
  cases c.attachment with
  | none => exact ⟨Steady.refl c, [], (List.append_nil _).symm, by rintro _ ⟨⟩, by rintro _ _ ⟨⟩⟩
  | some attachment => exact hideWindow_released c attachment.window

/-- The rollback with which a detachment begins leaves the attachment in its place. -/
theorem rollbackPrepared_released :
    let rolledBack := (c.hideAttachment calls).rollbackPrepared calls
    Frame calls c rolledBack.2 ∧ rolledBack.2.attachment = c.attachment ∧
      Released c rolledBack.2 (rolledBack.1.getD .detached) := by
  have hide : Frame calls c (c.hideAttachment calls) ∧
      (c.hideAttachment calls).attachment = c.attachment := by
    rw [hideAttachment]
    split
    · exact ⟨Frame.refl c, rfl⟩
    · exact ⟨hideWindow_frame c _, hideWindow_attachment c _⟩
  have hhidden := @hideAttachment_released σ S W c calls
  obtain ⟨hframe, hattachment⟩ := hide
  generalize c.hideAttachment calls = between at *
  intro rolledBack
  change Frame calls c (between.rollbackPrepared calls).2 ∧
    (between.rollbackPrepared calls).2.attachment = _ ∧
    Released c (between.rollbackPrepared calls).2 ((between.rollbackPrepared calls).1.getD .detached)
  rw [rollbackPrepared]
  cases between.transaction with
  | none => exact ⟨hframe, hattachment, hhidden⟩
  | some strategy =>
      have hundone := hhidden.trans (@rollback_released σ S W between calls strategy)
      have hrolled := hframe.trans (@rollback_frame σ S W between calls strategy)
      refine ⟨hrolled.trans (Frame.inner _ _ _ _ _ _), ?_, ?_⟩
      · exact (rollback_attachment between strategy).trans hattachment
      · exact ⟨hundone.steady.trans (Steady.inner _ _ _ _ _), hundone.log⟩

/-- What has been released so far: the context remembers a destroyed window. -/
structure Remembered (before after : TaskbarLayoutCoordinator σ S W)
    (context left : DetachingContext S W) : Prop where
  steady : Steady before after
  recreateWindow : left.recreateWindow = context.recreateWindow
  disposition : context.disposition = .destroyed → left.disposition = .destroyed
  log : ∃ added, after.log = before.log ++ added ∧ (∀ entry ∈ added, entry.closes = false) ∧
    ((∃ entry ∈ added, entry.destroys = true) → left.disposition = .destroyed)

theorem release_released (cause : DetachmentCause) (strategy : S) :
    Released c (c.release calls cause strategy).2 (c.release calls cause strategy).1 := by
  cases cause with
  | userRequested => exact detachStrategy_released c strategy
  | hostInvalidated => exact call_released c _ rfl fun hresult => decide_eq_false hresult

/-- One strategy is released, and then the others. -/
theorem Remembered.cons {result : DetachResult} {context middle left : DetachingContext S W}
    (hreleased : Released first second result) (hrest : Remembered second third middle left)
    (hwindow : middle.recreateWindow = context.recreateWindow)
    (hkept : context.disposition = .destroyed → middle.disposition = .destroyed)
    (hresult : result = .nativeWindowDestroyed → middle.disposition = .destroyed) :
    Remembered first third context left := by
  obtain ⟨added, hlog, hadded, hclean⟩ := hreleased.log
  obtain ⟨more, hlog', hmore, hleft⟩ := hrest.log
  refine ⟨hreleased.steady.trans hrest.steady, hrest.recreateWindow.trans hwindow,
    fun hdestroyed => hrest.disposition (hkept hdestroyed), added ++ more, ?_, ?_, ?_⟩
  · rw [hlog', hlog, List.append_assoc]
  · intro entry hentry
    exact (List.mem_append.1 hentry).elim (hadded entry) (hmore entry)
  · rintro ⟨entry, hentry, hdestroys⟩
    rcases List.mem_append.1 hentry with hentry | hentry
    · apply hrest.disposition
      apply hresult
      by_contra hother
      rw [hclean hother entry hentry] at hdestroys
      cases hdestroys
    · exact hleft ⟨entry, hentry, hdestroys⟩

/-! ## `runPrepare` -/

/-- A part of an operation has ended it with a result, or nothing is destroyed so far. -/
inductive Tells (before : TaskbarLayoutCoordinator σ S W) :
    Option Bool × TaskbarLayoutCoordinator σ S W → Prop
  | next {after : TaskbarLayoutCoordinator σ S W} (temporary : Bool) (hclean : Clean before after) :
      Tells before (some temporary, after)
  | posted {between : TaskbarLayoutCoordinator σ S W} {type : EventType}
      (htold : Told before between type) : Tells before (none, between.post type false)

theorem Tells.after {result : Option Bool × TaskbarLayoutCoordinator σ S W}
    (htells : Tells second result) (hclean : Clean first second) : Tells first result := by
  cases htells with
  | next temporary hnext => exact .next temporary (hclean.trans hnext)
  | posted htold => exact .posted (htold.after hclean)

theorem recreateForRetry_mem : c.recreateForRetry ∈ recreatingTypes := by
  rw [recreateForRetry]
  split_ifs <;> decide

theorem needsDetachOrFailed_told : Told c c c.needsDetachOrFailed := by
  apply (Clean.refl c).told
  rw [needsDetachOrFailed]
  split_ifs <;> rfl

variable [DecidableEq S]

theorem markIf_clean (strategy : S) (incompatible : Bool) : Clean c (c.markIf incompatible strategy) := by
  obtain ⟨strategies, hmarked⟩ := markIf_eq c strategy incompatible
  rw [hmarked]
  exact Clean.inner _ _ _ _ _

theorem afterTakeBack_mem (committed : TaskbarLayoutStrategy.AttachResult) :
    c.afterTakeBack committed ∈ recreatingTypes := by
  rw [afterTakeBack]
  split_ifs
  · exact recreateForRetry_mem c
  · decide
  · decide

theorem giveUp_told (temporary : Bool) :
    ∃ type, c.giveUp temporary = c.post type false ∧ Told c c type := by
  refine ⟨_, rfl, (Clean.refl c).told ?_⟩
  split_ifs <;> rfl

variable (request : AttachRequest W) (strategy : S)

theorem takeBack_tells (committed : TaskbarLayoutStrategy.AttachResult) :
    Tells c (c.takeBack calls request strategy committed) := by
  have hclean := (@hideWindow_clean σ S W c calls request.window).trans
    (markIf_clean _ strategy (committed = .incompatible))
  have hreleased := @rollback_released σ S W ((c.hideWindow calls request.window).markIf
    (committed = .incompatible) strategy) calls strategy
  rw [takeBack]
  simp only
  generalize ((c.hideWindow calls request.window).markIf (committed = .incompatible)
    strategy).rollback calls strategy = undone at hreleased
  obtain ⟨result, undone⟩ := undone
  cases result with
  | detached =>
      exact .next _ (hclean.trans ((hreleased.clean (by rintro ⟨⟩)).trans (Clean.inner _ _ _ _ _)))
  | nativeWindowDestroyed =>
      exact .posted (((hreleased.told (afterTakeBack_mem _ committed)).after hclean).inner _ _ _ _)
  | failed =>
      have htold := (hclean.trans (hreleased.clean (by rintro ⟨⟩))).told
        (rfl : EventType.operationNeedsDetach.isArrival = false)
      exact .posted (htold.inner _ _ _ _)

theorem commitReady_tells : Tells c (c.commitReady calls request strategy) := by
  have hclean := @commit_clean σ S W c calls request.window strategy
  rw [commitReady]
  generalize c.commit calls request.window strategy = committed at hclean
  obtain ⟨result, committed⟩ := committed
  have hfailed : ∀ failed, Tells c (committed.takeBack calls request strategy failed) :=
    fun failed => (takeBack_tells committed request strategy failed).after hclean
  cases result with
  | attached =>
      have htold := hclean.told (rfl : EventType.operationPrepared.isArrival = false)
      exact .posted (htold.inner _ _ _ _)
  | temporarilyUnavailable => exact hfailed _
  | incompatible => exact hfailed _
  | invalid => exact hfailed _

theorem releaseLast_told (temporary : Bool) :
    ∃ between type, c.releaseLast calls temporary = between.post type false ∧
      Told c between type := by
  rw [releaseLast]
  cases c.attachment with
  | none => exact ⟨c, giveUp_told c temporary⟩
  | some attachment =>
      have hclean := @hideWindow_clean σ S W c calls attachment.window
      have hreleased := @detachStrategy_released σ S W (c.hideWindow calls attachment.window) calls
        attachment.strategy
      simp only
      generalize (c.hideWindow calls attachment.window).detachStrategy calls
        attachment.strategy = released at hreleased
      obtain ⟨result, released⟩ := released
      cases result with
      | detached =>
          obtain ⟨type, hgiven, htold⟩ := giveUp_told
            ({ released with attachment := none } : TaskbarLayoutCoordinator σ S W) temporary
          exact ⟨_, type, hgiven, htold.after (hclean.trans ((hreleased.clean (by rintro ⟨⟩)).trans
            (Clean.inner _ _ _ _ _)))⟩
      | nativeWindowDestroyed =>
          have htype : EventType.operationRecreateFailure ∈ recreatingTypes := by decide
          exact ⟨_, _, rfl, ((hreleased.told htype).after hclean).inner _ _ _ _⟩
      | failed => exact ⟨_, _, rfl, (hclean.trans (hreleased.clean (by rintro ⟨⟩))).told rfl⟩

section Strategies

variable [DecidableEq W]

theorem releaseOther_told :
    (∃ after, c.releaseOther calls request strategy = (true, after) ∧ Clean c after) ∨
      ∃ between type, c.releaseOther calls request strategy = (false, between.post type false) ∧
        Told c between type := by
  rw [releaseOther]
  cases c.attachment with
  | none => exact Or.inl ⟨c, rfl, Clean.refl c⟩
  | some attachment =>
      simp only
      split_ifs
      · exact Or.inl ⟨c, rfl, Clean.refl c⟩
      have hclean := @hideWindow_clean σ S W c calls attachment.window
      have hreleased := @detachStrategy_released σ S W (c.hideWindow calls attachment.window) calls
        attachment.strategy
      generalize (c.hideWindow calls attachment.window).detachStrategy calls
        attachment.strategy = released at hreleased
      obtain ⟨result, released⟩ := released
      cases result with
      | detached =>
          exact Or.inl ⟨_, rfl, hclean.trans ((hreleased.clean (by rintro ⟨⟩)).trans
            (Clean.inner _ _ _ _ _))⟩
      | nativeWindowDestroyed =>
          have htold := (hreleased.told (recreateForRetry_mem released)).after hclean
          exact Or.inr ⟨_, _, rfl, htold.inner _ _ _ _⟩
      | failed =>
          have htold := (hclean.trans (hreleased.clean (by rintro ⟨⟩))).told
            (rfl : EventType.operationNeedsDetach.isArrival = false)
          exact Or.inr ⟨_, _, rfl, htold.inner _ _ _ _⟩

theorem tryStrategy_tells : Tells c (c.tryStrategy calls request strategy) := by
  have hclean := call_clean c (calls.prepareAttach strategy (c.pointer calls request.window))
  rw [tryStrategy]
  generalize c.call (calls.prepareAttach strategy (c.pointer calls request.window)) = made at hclean
  obtain ⟨readiness, made⟩ := made
  cases readiness with
  | none => exact .next false hclean
  | some readiness =>
      cases readiness with
      | unavailable => exact .next false hclean
      | temporarilyUnavailable =>
          simp only
          split_ifs
          · exact .posted (hclean.told rfl)
          · exact .next true hclean
      | ready =>
          simp only
          rcases @releaseOther_told σ S W made calls _ request strategy _ with
            ⟨after, hreleased, hafter⟩ | ⟨between, type, hreleased, htold⟩
          · rw [hreleased]
            exact (commitReady_tells after request strategy).after (hclean.trans hafter)
          · rw [hreleased]
            exact .posted (htold.after hclean)

theorem tryStrategies_told (strategies : List S) (temporary : Bool) :
    ∃ between type, tryStrategies calls request strategies temporary c = between.post type false ∧
      Told c between type := by
  induction strategies generalizing c temporary with
  | nil => exact releaseLast_told c temporary
  | cons strategy rest ih =>
      rw [tryStrategies]
      split_ifs
      · exact ih c temporary
      have htells := @tryStrategy_tells σ S W c calls _ request strategy _
      generalize c.tryStrategy calls request strategy = result at htells
      cases htells with
      | @next after failed hclean =>
          obtain ⟨between, type, htried, htold⟩ := ih after (temporary || failed)
          exact ⟨between, type, htried, htold.after hclean⟩
      | posted htold => exact ⟨_, _, rfl, htold⟩

theorem runPrepare_told :
    ∃ between type, c.runPrepare calls = between.post type false ∧ Told c between type := by
  rw [runPrepare]
  cases c.request with
  | none => exact ⟨c, _, rfl, needsDetachOrFailed_told c⟩
  | some request =>
      simp only
      split_ifs
      · exact tryStrategies_told c request _ false
      · exact ⟨c, _, rfl, needsDetachOrFailed_told c⟩

end Strategies

/-! ## `runFinalize` -/

theorem afterRollback_told {finalized : TaskbarLayoutStrategy.AttachResult} {result : DetachResult}
    (hreleased : Released first c result) :
    Told first c (c.afterRollback finalized (result = .nativeWindowDestroyed)) := by
  by_cases hdestroyed : result = .nativeWindowDestroyed
  · refine hreleased.told ?_
    rw [decide_eq_true hdestroyed, afterRollback]
    split_ifs <;> first | decide | exact absurd rfl ‹_›
  · refine (hreleased.clean hdestroyed).told ?_
    rw [decide_eq_false hdestroyed, afterRollback]
    split_ifs <;> rfl

theorem finalizeTransaction_told :
    ∃ between type, c.finalizeTransaction calls request strategy = between.post type false ∧
      Told c between type := by
  have hshown : Clean c ((c.record (.shown request.window)).call
      (calls.showWindow request.window)).2 :=
    (record_clean c rfl).trans (call_clean _ _)
  rw [finalizeTransaction]
  simp only
  generalize ((c.record (.shown request.window)).call (calls.showWindow request.window)).2 = shown
    at hshown ⊢
  have hanswered := call_clean shown (calls.finalize strategy)
  generalize shown.call (calls.finalize strategy) = answered at hanswered ⊢
  obtain ⟨result, answered⟩ := answered
  simp only at hanswered ⊢
  have hclean : Clean c (answered.record (.finalized strategy result)) :=
    (hshown.trans hanswered).trans (record_clean _ rfl)
  generalize answered.record (.finalized strategy result) = finalized at hclean ⊢
  by_cases hattached : result = .attached
  · rw [if_pos hattached]
    exact ⟨finalized, _, rfl, hclean.told rfl⟩
  rw [if_neg hattached]
  have hmarked : Clean c ((finalized.hideWindow calls request.window).markPrepared result) := by
    have hhidden := hclean.trans (@hideWindow_clean σ S W finalized calls request.window)
    rw [markPrepared]
    cases (finalized.hideWindow calls request.window).preparedStrategy with
    | none => exact hhidden
    | some strategy => exact hhidden.trans (markIf_clean _ strategy _)
  have hreleased := @rollback_released σ S W
    ((finalized.hideWindow calls request.window).markPrepared result) calls strategy
  generalize ((finalized.hideWindow calls request.window).markPrepared result).rollback calls
    strategy = undone at hreleased ⊢
  obtain ⟨released, undone⟩ := undone
  simp only at hreleased ⊢
  split_ifs with hfailed
  · have htold := (hmarked.trans (hreleased.clean (by rw [hfailed]; rintro ⟨⟩))).told
      (rfl : EventType.operationNeedsDetach.isArrival = false)
    exact ⟨_, _, rfl, htold.inner _ _ _ _⟩
  · have hreleased' : Released ((finalized.hideWindow calls request.window).markPrepared result)
        { undone with transaction := none, attachment := none, preparedStrategy := none }
        released :=
      ⟨hreleased.steady.trans (Steady.inner _ _ _ _ _), hreleased.log⟩
    exact ⟨_, _, rfl, (afterRollback_told _ hreleased').after hmarked⟩

theorem runFinalize_told :
    ∃ between type, c.runFinalize calls = between.post type false ∧ Told c between type := by
  have hfailed : ∃ between type,
      c.post c.needsDetachOrFailed false = between.post type false ∧ Told c between type :=
    ⟨c, _, rfl, needsDetachOrFailed_told c⟩
  rw [runFinalize]
  cases c.request with
  | none => exact hfailed
  | some request =>
      cases c.transaction with
      | none => exact hfailed
      | some strategy =>
          simp only
          split_ifs
          · exact finalizeTransaction_told c request strategy
          · exact hfailed

/-! ## The strategies of a detachment -/

theorem releaseStrategies_remembered (strategies : List S) (context : DetachingContext S W) :
    Remembered c (releaseStrategies calls strategies context c).2 context
      (releaseStrategies calls strategies context c).1 := by
  induction strategies generalizing c context with
  | nil =>
      refine ⟨Steady.refl c, rfl, id, [], (List.append_nil _).symm, by rintro _ ⟨⟩, ?_⟩
      rintro ⟨_, hentry, -⟩
      cases hentry
  | cons strategy rest ih =>
      have hreleased := @release_released σ S W c calls context.cause strategy
      rw [releaseStrategies]
      simp only
      split_ifs with hfailed
      · have hrest := ih (c.release calls context.cause strategy).2 context
        have hcons := Remembered.cons hreleased hrest rfl id
          fun hdestroyed => absurd (hfailed.symm.trans hdestroyed) (by rintro ⟨⟩)
        exact ⟨hcons.steady, hcons.recreateWindow, hcons.disposition, hcons.log⟩
      · refine Remembered.cons hreleased (ih _ _) rfl (fun hdestroyed => ?_) fun hdestroyed => ?_
        · rw [DetachingContext.released]
          simp only
          split_ifs
          · rfl
          · exact hdestroyed
        · exact if_pos hdestroyed

end TaskbarLayoutCoordinator

end UwfManager
