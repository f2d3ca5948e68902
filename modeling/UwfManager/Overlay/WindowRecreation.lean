import UwfManager.Library.Obligation
import UwfManager.Overlay.HostInvalidation
import UwfManager.Overlay.WindowRelease

/-!
# A destroyed native window is made anew

After an answer that the native window is gone, the coordinator owes its owner a call for a
new window.  The debt is carried by the result of an operation in the queue, or by the
context of a detachment.  A release that is taken from the queue in front of such a result
drops it.
-/

namespace UwfManager

open TaskbarLayoutStrategy (DetachResult)

open GuardedRun (Guarded)

namespace TaskbarLayoutCoordinator

variable {σ S W : Type*}

/-- What is seen of a run: the log, the calls for a new window, and the coordinator at rest. -/
inductive Mark (S W : Type*) where
  | happened (entry : LogEntry S W)
  | recreated
  | idle
  deriving DecidableEq

def Mark.obliges : Mark S W → Bool
  | happened entry => entry.destroys
  | _ => false

def Mark.discharges : Mark S W → Bool
  | recreated => true
  | _ => false

def Mark.closes : Mark S W → Bool
  | happened entry => entry.closes
  | recreated => false
  | idle => true

/-- The next move asks the owner of the window for a new one. -/
def recreates (c : TaskbarLayoutCoordinator σ S W) : Move W → Bool
  | .process =>
      match c.events with
      | [] => false
      | event :: _ =>
          match (reduce c.state event).action with
          | .recreateWindow => c.request.isSome
          | .recreateDetachedWindow => c.detaching.any (·.recreateWindow)
          | _ => false
  | _ => false

def atRest (c : TaskbarLayoutCoordinator σ S W) : Bool :=
  c.events.isEmpty && c.state ∈ [State.detached, .prepared, .attached]

/-- No release begins while a result waits that asks for a new window. -/
def Yields (c : TaskbarLayoutCoordinator σ S W) : Move W → Prop
  | .process => c.state ∈ activeStates →
      c.events.head?.any (fun event => event.type = .detachRequested ∨
        event.type = .hostInvalidated) →
      ¬c.events.any (·.type ∈ recreatingTypes)
  | _ => True

instance (c : TaskbarLayoutCoordinator σ S W) : (move : Move W) → Decidable (c.Yields move)
  | .process => inferInstanceAs (Decidable (_ → _ → _))
  | .arrive _ | .refresh | .notify => inferInstanceAs (Decidable True)

theorem recreates_process (c : TaskbarLayoutCoordinator σ S W) {event : Event W} {events : List (Event W)}
    (hevents : c.events = event :: events) :
    c.recreates .process = match (reduce c.state event).action with
      | .recreateWindow => c.request.isSome
      | .recreateDetachedWindow => c.detaching.any (·.recreateWindow)
      | _ => false := by
  rw [recreates, hevents]

section Seen

variable [DecidableEq S] [DecidableEq W] (calls : TaskbarShell σ S W)
  (c : TaskbarLayoutCoordinator σ S W)

/-- What is seen of one move; while a new window is asked for, arrivals alone are logged. -/
def seen (move : Move W) : List (Mark S W) :=
  ((c.step calls move).log.drop c.log.length).map .happened ++
    ((if c.recreates move then [.recreated] else []) ++
      if (c.step calls move).atRest then [.idle] else [])

/-- The move that is seen to ask for a new window lets the shell answer exactly this. -/
theorem recreates_shell {move : Move W} (hrecreates : c.recreates move = true) :
    (c.step calls move).shell = (calls.recreateWindow c.shell).shell := by
  cases move with
  | process =>
      cases hevents : c.events with
      | nil =>
          rw [recreates, hevents] at hrecreates
          cases hrecreates
      | cons event events =>
          rw [recreates_process c hevents] at hrecreates
          rw [step, hevents]
          change (({ c with events := events, state := (reduce c.state event).nextState } :
            TaskbarLayoutCoordinator σ S W).execute calls (reduce c.state event).action event).shell
              = _
          generalize (reduce c.state event).action = action at hrecreates ⊢
          cases action with
          | recreateWindow =>
              change c.request.isSome = true at hrecreates
              obtain ⟨request, hrequest⟩ := Option.isSome_iff_exists.1 hrecreates
              rw [execute, recreateWindow, hrequest]
              simp only
              split <;> exact call_shell _ _
          | recreateDetachedWindow =>
              change c.detaching.any (·.recreateWindow) = true at hrecreates
              rw [execute, recreateDetachedWindow, if_pos hrecreates]
              exact call_shell _ _
          | _ => cases hrecreates
  | _ => cases hrecreates

/-- After an answer that the window is gone, a new one is asked for before anything else is
committed, before a detachment is told to be complete, and before the coordinator rests. -/
def RecreatesWindows (strategies : List S) (shell : σ) (moves : List (Move W)) : Prop :=
  Obligation.Met Mark.obliges Mark.discharges Mark.closes
    (Obligation.runTrace (step calls) (seen calls) (construct strategies shell) moves)

end Seen

/-! ## Rows of the table -/

/-- The transitions in whose states a detachment is not under way, and that end there. -/
def completions : List Action :=
  [.completePrepared, .completeAttached, .completeRetained, .completeTemporary,
    .completeIncompatible, .completeFailed]

/-- The rows of the table by what they do. -/
inductive Row (state : State) (type : EventType) (windowDestroyed : Bool) : Transition → Prop
  | ignored : Row state type windowDestroyed ⟨state, .none⟩
  | accepted (hstate : state = .detached ∨ state = .attached)
      (htype : type = .acquireRequested) : Row state type windowDestroyed ⟨.preparing, .acceptRequest⟩
  | prepared {next : State} (hstate : state ∈ operatingStates)
      (hresult : type.isArrival = false) (htype : type ∉ recreatingTypes)
      (hnext : next = .preparing ∨ next = .repreparing) : Row state type windowDestroyed ⟨next, .prepare⟩
  | finalized (hstate : state = .prepared ∨
        state ∈ operatingStates ∧ type = .operationPrepared) :
      Row state type windowDestroyed ⟨.finalizing, .finalize⟩
  | completed {next : State} {action : Action} (hstate : state ∉ detachingStates)
      (hresult : state ∈ operatingStates → type.isArrival = false)
      (htype : type ∉ recreatingTypes)
      (hnext : next ∈ [State.detached, .prepared, .attached]) (haction : action ∈ completions) :
      Row state type windowDestroyed ⟨next, action⟩
  | reported (hstate : state ∈ detachingStates) : Row state type windowDestroyed ⟨state, .completeReleaseStatus⟩
  | recreated {next : State} (hstate : state ∈ operatingStates)
      (hnext : next ∈ recreatingStates) : Row state type windowDestroyed ⟨next, .recreateWindow⟩
  | recreatedDetached (hstate : state = .detaching) (htype : type = .detachCompleted) :
      Row state type windowDestroyed ⟨.recreatingAfterDetach, .recreateDetachedWindow⟩
  | begun {action : Action} (hstate : state ∈ activeStates)
      (htype : type = .detachRequested ∨ type = .hostInvalidated ∨
        type = .operationNeedsDetach)
      (haction : action = .beginUserDetach ∨ action = .beginHostDetach) :
      Row state type windowDestroyed ⟨.detaching, action⟩
  | escalated (hstate : state = .detaching) : Row state type windowDestroyed ⟨state, .escalateHostDetach⟩
  | scheduled (hstate : state = .detaching) : Row state type windowDestroyed ⟨state, .scheduleDetach⟩
  | advanced (hstate : state = .detaching) (htype : type = .detachDue) :
      Row state type windowDestroyed ⟨state, .advanceDetach⟩
  | finished (hstate : state = .detaching ∧ type = .detachCompleted ∧
        windowDestroyed = false ∨ state = .recreatingAfterDetach) :
      Row state type windowDestroyed ⟨.detached, .completeDetach⟩
  | notified (hstate : state = .detached) : Row state type windowDestroyed ⟨state, .notifyDetachedHostRefresh⟩

theorem reduce_row (state : State) (event : Event W) :
    Row state event.type event.nativeWindowDestroyed (reduce state event) := by
  obtain ⟨type, windowDestroyed, request⟩ := event
  have hsame : reduce state (⟨type, windowDestroyed, request⟩ : Event W) =
      reduce state (⟨type, windowDestroyed, none⟩ : Event Unit) := by
    cases state <;> cases type <;> rfl
  rw [hsame]
  change Row state type windowDestroyed _
  cases state <;> cases type <;> cases windowDestroyed <;> first
    | exact .ignored
    | exact .accepted (by decide) rfl
    | exact .prepared (by decide) rfl (by decide) (by decide)
    | exact .finalized (by decide)
    | exact .completed (by decide) (by decide) (by decide) (by decide) (by decide)
    | exact .reported (by decide)
    | exact .recreated (by decide) (by decide)
    | exact .begun (by decide) (by decide) (by decide)
    | exact .escalated rfl
    | exact .scheduled rfl
    | exact .advanced rfl rfl
    | exact .finished (by decide)
    | exact .notified rfl
    | exact .recreatedDetached rfl rfl

/-! ## The invariant -/

/-- Whoever owes a new window can ask for it. -/
structure Equipped (c : TaskbarLayoutCoordinator σ S W) : Prop where
  supplied : c.Supplied
  request : c.state ∈ operatingStates → c.request.isSome
  context : ∀ context ∈ c.detaching, context.recreateWindow = true

/-- What is owed is carried by a result that waits, or by the context of the detachment and
by the event that completes it. -/
def Carries (c : TaskbarLayoutCoordinator σ S W) : Prop :=
  c.state ∈ operatingStates ∧ (∃ event ∈ c.events, event.type ∈ recreatingTypes) ∨
    c.state = .detaching ∧ (∀ context ∈ c.detaching, context.disposition = .destroyed) ∧
      ∀ event ∈ c.events, event.type = .detachCompleted → event.nativeWindowDestroyed = true

theorem Carries.not_atRest {c : TaskbarLayoutCoordinator σ S W} (hcarries : c.Carries) :
    c.atRest = false := by
  rw [atRest, Bool.and_eq_false_iff]
  right
  rw [decide_eq_false_iff_not]
  rcases hcarries with ⟨hstate, -⟩ | ⟨hstate, -⟩
  · simp only [operatingStates, List.mem_cons, List.not_mem_nil, or_false] at hstate
    rcases hstate with hstate | hstate | hstate | hstate | hstate | hstate | hstate <;>
      rw [hstate] <;> decide
  · rw [hstate]
    decide

/-- What one event does to the debt: before a window is destroyed anything can happen, and
then nothing is closed until a new window is asked for or the debt is carried on. -/
structure Progress (owed recreated : Bool) (before after : TaskbarLayoutCoordinator σ S W) :
    Prop where
  equipped : after.Equipped
  log : ∃ front back, after.log = before.log ++ (front ++ back) ∧
    (∀ entry ∈ front, entry.destroys = false) ∧ (∀ entry ∈ back, entry.closes = false) ∧
    (owed = true → front = []) ∧
    (recreated = false → (owed = true ∨ ∃ entry ∈ back, entry.destroys = true) → after.Carries)

theorem due_happened {owed : Bool} {entries : List (LogEntry S W)}
    (hdue : Obligation.due Mark.obliges Mark.discharges owed (entries.map .happened) = true) :
    owed = true ∨ ∃ entry ∈ entries, entry.destroys = true := by
  by_contra hnone
  rw [not_or, Bool.not_eq_true] at hnone
  obtain ⟨rfl, hclean⟩ := hnone
  rw [Obligation.due_of_unobliged] at hdue
  · cases hdue
  · intro mark hmark
    obtain ⟨entry, hentry, rfl⟩ := List.mem_map.1 hmark
    exact Bool.eq_false_iff.2 fun hdestroys => hclean ⟨entry, hentry, hdestroys⟩

/-- A call for a new window pays off whatever is due. -/
theorem recreated_pays (owed rest : Bool) :
    let marks : List (Mark S W) := [.recreated] ++ if rest then [.idle] else []
    Obligation.Sound Mark.obliges Mark.discharges Mark.closes owed marks ∧
      Obligation.due Mark.obliges Mark.discharges owed marks = false := by
  cases rest <;> cases owed <;>
    exact ⟨by simp [Obligation.Sound, Obligation.dueAfter, Mark.closes, Mark.obliges,
      Mark.discharges], rfl⟩

variable {c first between after : TaskbarLayoutCoordinator σ S W} {owed recreated : Bool}

/-- Nothing is logged, and the debt is carried on. -/
theorem Progress.of_carried (hequipped : after.Equipped) (hlog : after.log = c.log)
    (hcarries : owed = true → after.Carries) : Progress owed recreated c after := by
  refine ⟨hequipped, [], [], ?_, by rintro _ ⟨⟩, by rintro _ ⟨⟩, fun _ => rfl, fun _ hdue => ?_⟩
  · rw [hlog, List.append_nil, List.append_nil]
  · refine hcarries (hdue.resolve_right ?_)
    rintro ⟨_, hentry, -⟩
    cases hentry

/-- Nothing is due and no window is destroyed. -/
theorem Progress.of_unowed {added : List (LogEntry S W)} (hequipped : after.Equipped)
    (hlog : after.log = c.log ++ added) (hadded : ∀ entry ∈ added, entry.destroys = false) :
    Progress false recreated c after := by
  refine ⟨hequipped, added, [], ?_, hadded, by rintro _ ⟨⟩, by rintro ⟨⟩, fun _ hdue => ?_⟩
  · rw [hlog, List.append_nil]
  · rcases hdue with hdue | ⟨_, hentry, -⟩
    · cases hdue
    · cases hentry

/-- Nothing is closed, and what is due is carried on. -/
theorem Progress.of_open {added : List (LogEntry S W)} (hequipped : after.Equipped)
    (hlog : after.log = c.log ++ added) (hadded : ∀ entry ∈ added, entry.closes = false)
    (hcarries : recreated = false → (owed = true ∨ ∃ entry ∈ added, entry.destroys = true) →
      after.Carries) : Progress owed recreated c after :=
  ⟨hequipped, [], added, hlog, by rintro _ ⟨⟩, hadded, fun _ => rfl, hcarries⟩

/-- An operation ends with its result. -/
theorem progress_operated {type : EventType} (htold : Told first between type)
    (hlog : first.log = c.log) (hdetaching : first.detaching = none) (hsupplied : first.Supplied)
    (hstate : first.state ∈ operatingStates) (hrequest : first.request.isSome) :
    Progress false recreated c (between.post type false) := by
  obtain ⟨front, back, hadded, hfront, hback, htype⟩ := htold.log
  have hkept : between.state ∈ operatingStates := by
    rw [htold.steady.state]
    exact hstate
  refine ⟨⟨(htold.steady.supplied hsupplied).post htold.result false, fun _ => ?_, ?_⟩,
    front, back, ?_, hfront, hback, by rintro ⟨⟩, fun _ hdue => ?_⟩
  · change between.request.isSome = true
    rw [htold.steady.request]
    exact hrequest
  · intro context hcontext
    change context ∈ between.detaching at hcontext
    rw [htold.steady.detaching, hdetaching] at hcontext
    cases hcontext
  · rw [← hlog]
    exact hadded
  · rcases hdue with hdue | hdestroys
    · cases hdue
    · exact Or.inl ⟨hkept, _, List.mem_append_right _ (List.mem_singleton_self _), htype hdestroys⟩

/-- A notice that a detachment has started or is blocked neither destroys nor closes. -/
theorem notices_quiet {notices : List DetachEvent}
    (hphase : ∀ notice ∈ notices, notice.phase ≠ .completed) :
    ∀ entry ∈ notices.map (LogEntry.published : DetachEvent → LogEntry S W),
      entry.destroys = false ∧ entry.closes = false := by
  intro entry hentry
  obtain ⟨notice, hnotice, rfl⟩ := List.mem_map.1 hentry
  exact ⟨rfl, decide_eq_false (hphase notice hnotice)⟩

/-! ## One event -/

variable {calls : TaskbarShell σ S W}

/-- Only the log of the coordinator before the event counts. -/
theorem Progress.before (hprogress : Progress owed recreated first after)
    (hlog : first.log = c.log) : Progress owed recreated c after := by
  refine ⟨hprogress.equipped, ?_⟩
  rw [← hlog]
  exact hprogress.log

theorem progress_recreated (hequipped : c.Equipped) (hrequest : c.request.isSome) :
    Progress owed true c (c.recreateWindow calls) := by
  have hsteady := call_steady c calls.recreateWindow
  obtain ⟨added, hlog, hadded⟩ := call_log c calls.recreateWindow
  have hopen : ∀ entry ∈ added, entry.closes = false := fun entry hentry =>
    (hadded entry hentry).2
  rw [recreateWindow]
  cases hrequested : c.request with
  | none =>
      rw [hrequested] at hrequest
      cases hrequest
  | some request =>
      simp only
      generalize c.call calls.recreateWindow = recreated at hsteady hlog
      obtain ⟨window, recreated⟩ := recreated
      simp only at hsteady hlog
      have hsupplied : recreated.Supplied := hsteady.supplied hequipped.supplied
      have hcontext : ∀ context ∈ recreated.detaching, context.recreateWindow = true := by
        rw [hsteady.detaching]
        exact hequipped.context
      cases window with
      | none =>
          have hkept : recreated.request.isSome := by
            rw [hsteady.request]
            exact hrequest
          exact .of_open ⟨hsupplied.post rfl false, fun _ => hkept, hcontext⟩ hlog hopen (by rintro ⟨⟩)
      | some window =>
          have hrenewed : Supplied ({ recreated with request := some ⟨window⟩ } :
            TaskbarLayoutCoordinator σ S W) := hsupplied
          exact .of_open ⟨hrenewed.post rfl false, fun _ => rfl, hcontext⟩ hlog hopen (by rintro ⟨⟩)

theorem progress_recreatedDetached (hequipped : c.Equipped)
    (hstate : c.state = .recreatingAfterDetach) (hcontext : c.detaching.isSome) :
    Progress owed true c (c.recreateDetachedWindow calls) := by
  obtain ⟨context, hcontext⟩ := Option.isSome_iff_exists.1 hcontext
  have hsteady := call_steady c calls.recreateWindow
  obtain ⟨added, hlog, hadded⟩ := call_log c calls.recreateWindow
  have hwindow : c.detaching.any (·.recreateWindow) = true := by
    rw [hcontext]
    exact hequipped.context context hcontext
  rw [recreateDetachedWindow, if_pos hwindow]
  generalize c.call calls.recreateWindow = recreated at hsteady hlog
  refine .of_open ⟨(hsteady.supplied hequipped.supplied).post ?_ false, ?_, ?_⟩ hlog
    (fun entry hentry => (hadded entry hentry).2) (by rintro ⟨⟩)
  · split_ifs <;> rfl
  · intro hoperating
    change recreated.2.state ∈ operatingStates at hoperating
    rw [hsteady.state, hstate] at hoperating
    exact absurd hoperating (by decide)
  · change ∀ context ∈ recreated.2.detaching, context.recreateWindow = true
    rw [hsteady.detaching]
    exact hequipped.context

/-- A window that the rollback has destroyed is remembered in the context. -/
theorem detachingContext_remembers (cause : DetachmentCause) (result : Option DetachResult) :
    (result.getD .detached = .nativeWindowDestroyed →
        (c.detachingContext cause result).disposition = .destroyed) ∧
      (c.detachingContext cause result).recreateWindow =
        (c.attachment.isSome || c.request.isSome) := by
  refine ⟨fun hresult => ?_, rfl⟩
  cases result with
  | none => cases hresult
  | some result =>
      change result = .nativeWindowDestroyed at hresult
      rw [hresult]
      rfl

/-- A detachment begins. -/
theorem progress_begun (hstate : c.state = .detaching) (hsupplied : c.Supplied)
    (hwindow : c.attachment.isSome ∨ c.request.isSome)
    (hcompleted : ∀ event ∈ c.events, event.type ≠ .detachCompleted) (cause : DetachmentCause) :
    Progress false recreated c (c.beginDetaching calls cause) := by
  obtain ⟨hframe, hattachment, hreleased⟩ := @rollbackPrepared_released σ S W
    { c with lastAttachResult := .releasePending } calls
  rw [beginDetaching]
  generalize ({ c with lastAttachResult := .releasePending }.hideAttachment calls).rollbackPrepared
    calls = rolledBack at hframe hattachment hreleased
  obtain ⟨result, rolledBack⟩ := rolledBack
  simp only at hframe hattachment hreleased ⊢
  obtain ⟨hremembers, hrecreate⟩ := @detachingContext_remembers σ S W rolledBack cause result
  generalize rolledBack.detachingContext cause result = context at hremembers hrecreate ⊢
  have hkept : context.recreateWindow = true := by
    rw [hrecreate, hattachment, hreleased.steady.request, Bool.or_eq_true]
    exact hwindow
  obtain ⟨added, hlog, hopen, hclean⟩ := hreleased.log
  obtain ⟨raised, hevents, harrivals⟩ := hframe.events
  have hquiet : ∀ entry ∈ cause.notices.map (LogEntry.published : DetachEvent → LogEntry S W),
      entry.destroys = false ∧ entry.closes = false := by
    apply notices_quiet
    cases cause with
    | userRequested => rintro _ ⟨⟩
    | hostInvalidated =>
        intro notice hnotice
        rw [List.mem_singleton.1 hnotice]
        rintro ⟨⟩
  -- whatever is posted, it tells of the destroyed window as the context does
  have hposted : ∀ type : EventType, type.isArrival = false →
      Progress false recreated c ((announce { rolledBack with
        preparedStrategy := none, detaching := some context } cause).post type
          (context.disposition = .destroyed)) := by
    intro type htype
    rw [announce_eq]
    have hsupplied' : Supplied ({ rolledBack with
        preparedStrategy := none, detaching := some context
        notifications := rolledBack.notifications ++ cause.notices
        log := rolledBack.log ++ cause.notices.map .published } :
          TaskbarLayoutCoordinator σ S W) :=
      hreleased.steady.supplied hsupplied
    have hdetaching : rolledBack.state = .detaching := hframe.state.trans hstate
    have hlog' : rolledBack.log ++ cause.notices.map .published =
        c.log ++ (added ++ cause.notices.map .published) := by
      rw [hlog, List.append_assoc]
    refine .of_open ⟨hsupplied'.post htype _, ?_, ?_⟩ hlog' ?_ ?_
    · intro hoperating
      change rolledBack.state ∈ operatingStates at hoperating
      rw [hdetaching] at hoperating
      exact absurd hoperating (by decide)
    · intro other hother
      obtain rfl : context = other := Option.some.inj hother
      exact hkept
    · intro entry hentry
      exact (List.mem_append.1 hentry).elim (hopen entry) fun hmem => (hquiet entry hmem).2
    · rintro - (howed | ⟨entry, hentry, hdestroys⟩)
      · cases howed
      have hdestroyed : context.disposition = .destroyed := by
        apply hremembers
        by_contra hother
        rcases List.mem_append.1 hentry with hmem | hmem
        · rw [hclean hother entry hmem] at hdestroys
          cases hdestroys
        · rw [(hquiet entry hmem).1] at hdestroys
          cases hdestroys
      refine Or.inr ⟨hdetaching, ?_, ?_⟩
      · intro other hother
        obtain rfl : context = other := Option.some.inj hother
        exact hdestroyed
      · intro event hevent hcompletes
        rcases List.mem_append.1 hevent with hevent | hevent
        · change event ∈ rolledBack.events at hevent
          rw [hevents] at hevent
          rcases List.mem_append.1 hevent with hevent | hevent
          · exact absurd hcompletes (hcompleted event hevent)
          · exact absurd hcompletes (arrivals_not_completed harrivals event hevent)
        · rw [List.mem_singleton.1 hevent]
          exact decide_eq_true hdestroyed
  have htype : (if context.strategies.isEmpty then EventType.detachCompleted
      else .detachBlocked).isArrival = false := by
    split_ifs <;> rfl
  exact hposted _ htype

/-- A detachment that owes nothing is told to be complete. -/
theorem progress_finished (hequipped : c.Equipped) (hstate : c.state = .detached) :
    Progress false recreated c c.finishDetaching := by
  refine .of_unowed ⟨hequipped.supplied, fun hoperating => ?_, by rintro _ ⟨⟩⟩ rfl fun entry hentry => ?_
  · change c.state ∈ operatingStates at hoperating
    rw [hstate] at hoperating
    exact absurd hoperating (by decide)
  · rw [List.mem_singleton.1 hentry]
    rfl

variable [DecidableEq S]

/-- A round for an invalidated host keeps what its context remembers. -/
theorem progress_escalated (hequipped : c.Equipped) (hstate : c.state = .detaching)
    (hcontext : c.detaching.isSome) (hcarries : owed = true → c.Carries) :
    Progress owed recreated c c.escalateDetaching := by
  obtain ⟨context, hcontext⟩ := Option.isSome_iff_exists.1 hcontext
  rcases escalateDetaching_cases c hcontext with
    ⟨-, hsame⟩ | ⟨-, strategies, -, hescalated⟩
  · rw [hsame]
    exact .of_carried hequipped rfl hcarries
  rw [hescalated]
  have hquiet : ∀ entry ∈ [LogEntry.published ⟨.started, .hostInvalidated⟩],
      (entry : LogEntry S W).destroys = false ∧ entry.closes = false := by
    intro entry hentry
    rw [List.mem_singleton.1 hentry]
    exact ⟨rfl, rfl⟩
  refine .of_open ⟨hequipped.supplied, hequipped.request, ?_⟩ rfl
    (fun entry hentry => (hquiet entry hentry).2) ?_
  · intro other hother
    obtain rfl := Option.some.inj hother
    exact hequipped.context context hcontext
  · rintro - (howed | ⟨entry, hentry, hdestroys⟩)
    · rcases hcarries howed with ⟨hoperating, -⟩ | ⟨-, hdestroyed, hevents⟩
      · rw [hstate] at hoperating
        exact absurd hoperating (by decide)
      · refine Or.inr ⟨hstate, fun other hother => ?_, hevents⟩
        obtain rfl := Option.some.inj hother
        exact hdestroyed context hcontext
    · rw [(hquiet entry hentry).1] at hdestroys
      cases hdestroys

theorem progress_notified (hequipped : c.Equipped) :
    Progress false recreated c c.scheduleDetachedHostRefresh := by
  rw [scheduleDetachedHostRefresh]
  split_ifs
  · exact .of_carried hequipped rfl (by rintro ⟨⟩)
  · refine .of_unowed ⟨hequipped.supplied, hequipped.request, hequipped.context⟩ rfl
      fun entry hentry => ?_
    rw [List.mem_singleton.1 hentry]
    rfl

variable [DecidableEq W]

/-- The monitor follows a move. -/
theorem Progress.seen {move : Move W}
    (hprogress : Progress owed (c.recreates move) c (c.step calls move)) :
    Obligation.Sound Mark.obliges Mark.discharges Mark.closes owed (seen calls c move) ∧
      (Obligation.due Mark.obliges Mark.discharges owed (seen calls c move) = true →
        (c.step calls move).Carries) := by
  obtain ⟨front, back, hlog, hfront, hback, hopen, hcarries⟩ := hprogress.log
  rw [TaskbarLayoutCoordinator.seen, hlog, List.drop_left]
  have hclean : ∀ mark ∈ front.map Mark.happened, mark.obliges = false := by
    intro mark hmark
    obtain ⟨entry, hentry, rfl⟩ := List.mem_map.1 hmark
    exact hfront entry hentry
  have hsound : Obligation.Sound Mark.obliges Mark.discharges Mark.closes owed
      ((front ++ back).map .happened) := by
    rw [List.map_append]
    refine Obligation.sound_append.2 ⟨?_, Obligation.sound_of_open fun mark hmark => ?_⟩
    · cases owed with
      | false => exact Obligation.sound_of_unobliged hclean
      | true =>
          rw [hopen rfl]
          exact trivial
    · obtain ⟨entry, hentry, rfl⟩ := List.mem_map.1 hmark
      exact hback entry hentry
  rw [Obligation.sound_append, Obligation.due_append]
  have hdue : Obligation.due Mark.obliges Mark.discharges owed
      ((front ++ back).map .happened) = true →
      owed = true ∨ ∃ entry ∈ back, entry.destroys = true := by
    intro hdue
    refine (due_happened hdue).imp_right ?_
    rintro ⟨entry, hentry, hdestroys⟩
    refine ⟨entry, (List.mem_append.1 hentry).resolve_left fun hmem => ?_, hdestroys⟩
    rw [hfront entry hmem] at hdestroys
    cases hdestroys
  generalize Obligation.due Mark.obliges Mark.discharges owed
    ((front ++ back).map .happened) = due at hdue ⊢
  cases hrecreated : c.recreates move with
  | true =>
      rw [if_pos rfl]
      obtain ⟨hpays, hpaid⟩ := @recreated_pays S W due (c.step calls move).atRest
      exact ⟨⟨hsound, hpays⟩, fun howed => absurd (hpaid.symm.trans howed) (by rintro ⟨⟩)⟩
  | false =>
      rw [if_neg Bool.false_ne_true, List.nil_append]
      have hcarried : due = true → (c.step calls move).Carries := fun howed =>
        hcarries hrecreated (hdue howed)
      split_ifs with hrest
      · have hnone : due = false := by
          by_contra howed
          rw [Bool.not_eq_false] at howed
          rw [(hcarried howed).not_atRest] at hrest
          cases hrest
        rw [hnone]
        exact ⟨⟨hsound, fun _ => rfl, trivial⟩, by rintro ⟨⟩⟩
      · exact ⟨⟨hsound, trivial⟩, hcarried⟩

/-- An operation that has ended is told its result. -/
theorem progress_completed {event : Event W} {next : State} {action : Action}
    (hequipped : c.Equipped) (hnext : next ∈ [State.detached, .prepared, .attached])
    (haction : action ∈ completions) :
    Progress false recreated c
      (({ c with state := next } : TaskbarLayoutCoordinator σ S W).execute calls action event) := by
  have hidle : next ∉ operatingStates := by
    simp only [List.mem_cons, List.not_mem_nil, or_false] at hnext
    rcases hnext with rfl | rfl | rfl <;> decide
  have hended : ∀ result request transaction preparedStrategy, Progress false recreated c
      ({ c with
        state := next
        lastAttachResult := result
        request := request
        transaction := transaction
        preparedStrategy := preparedStrategy } : TaskbarLayoutCoordinator σ S W) :=
    fun _ _ _ _ => .of_carried ⟨hequipped.supplied, fun hstate => absurd hstate hidle,
      hequipped.context⟩ rfl (by rintro ⟨⟩)
  simp only [completions, List.mem_cons, List.not_mem_nil, or_false] at haction
  rcases haction with rfl | rfl | rfl | rfl | rfl | rfl <;> exact hended _ _ _ _

/-- One attempt at the strategies: a window that is destroyed is remembered. -/
theorem progress_advanced (hequipped : c.Equipped) (hstate : c.state = .detaching)
    (hcontext : c.detaching.isSome) (hcompleted : ∀ event ∈ c.events, event.type ≠ .detachCompleted)
    (hcarries : owed = true → c.Carries) :
    Progress owed recreated c (c.advanceDetaching calls) := by
  obtain ⟨context, hcontext⟩ := Option.isSome_iff_exists.1 hcontext
  obtain ⟨left, released, hreleases, hcases⟩ := @advanceDetaching_cases σ S W _ c calls context
    hcontext
  have hremembered := @releaseStrategies_remembered σ S W c calls _ context.strategies
    { context with attempts := context.attempts + 1 }
  have hundisturbed := @releaseStrategies_undisturbed σ S W _ c calls _ context.strategies
    { context with attempts := context.attempts + 1 }
  rw [hreleases] at hremembered hundisturbed
  obtain ⟨added, hlog, hopen, hdestroyed⟩ := hremembered.log
  obtain ⟨raised, hevents, harrivals⟩ := hundisturbed.frame.events
  have hdetaching : released.state = .detaching := hundisturbed.frame.state.trans hstate
  have hsupplied : released.Supplied := hremembered.steady.supplied hequipped.supplied
  have hidle : released.state ∉ operatingStates := by
    rw [hdetaching]
    decide
  have hnone : ∀ event ∈ released.events, event.type ≠ .detachCompleted := by
    rw [hevents]
    intro event hevent
    exact (List.mem_append.1 hevent).elim (hcompleted event)
      (arrivals_not_completed harrivals event)
  have hkept : ∀ other ∈ some left, other.recreateWindow = true := by
    intro other hother
    obtain rfl := Option.some.inj hother
    exact hremembered.recreateWindow.trans (hequipped.context context hcontext)
  -- the debt of before and the one of this attempt are both in the context
  have hcarried : (owed = true ∨ ∃ entry ∈ added, entry.destroys = true) →
      left.disposition = .destroyed := by
    rintro (howed | hdestroys)
    · rcases hcarries howed with ⟨hoperating, -⟩ | ⟨-, hbefore, -⟩
      · rw [hstate] at hoperating
        exact absurd hoperating (by decide)
      · exact hremembered.disposition (hbefore context hcontext)
    · exact hdestroyed hdestroys
  have hcontext' : left.disposition = .destroyed → ∀ other ∈ some left,
      other.disposition = .destroyed := by
    intro hleft other hother
    obtain rfl := Option.some.inj hother
    exact hleft
  rcases hcases with ⟨-, hadvanced⟩ | ⟨notices, interval, hblocked, hadvanced⟩
  · rw [hadvanced]
    have hsupplied' : Supplied ({ released with detaching := some left } :
        TaskbarLayoutCoordinator σ S W) := hsupplied
    refine .of_open ⟨hsupplied'.post rfl _, fun hoperating => absurd hoperating hidle, hkept⟩ hlog
      hopen fun _ hdue => Or.inr ⟨hdetaching, hcontext' (hcarried hdue), ?_⟩
    intro event hevent hcompletes
    rcases List.mem_append.1 hevent with hevent | hevent
    · exact absurd hcompletes (hnone event hevent)
    · rw [List.mem_singleton.1 hevent]
      exact decide_eq_true (hcarried hdue)
  · rw [hadvanced]
    have hquiet := @notices_quiet S W notices fun notice hnotice => by
      rw [hblocked notice hnotice]
      rintro ⟨⟩
    have hlog' : released.log ++ notices.map .published =
        c.log ++ (added ++ notices.map .published) := by
      rw [hlog, List.append_assoc]
    refine .of_open ⟨hsupplied, fun hoperating => absurd hoperating hidle, hkept⟩ hlog' ?_ ?_
    · intro entry hentry
      exact (List.mem_append.1 hentry).elim (hopen entry) fun hmem => (hquiet entry hmem).2
    · rintro - hdue
      have hdue' : owed = true ∨ ∃ entry ∈ added, entry.destroys = true := by
        refine hdue.imp_right ?_
        rintro ⟨entry, hentry, hdestroys⟩
        refine ⟨entry, (List.mem_append.1 hentry).resolve_right fun hmem => ?_, hdestroys⟩
        rw [(hquiet entry hmem).1] at hdestroys
        cases hdestroys
      exact Or.inr ⟨hdetaching, hcontext' (hcarried hdue'), fun event hevent hcompletes =>
        absurd hcompletes (hnone event hevent)⟩

/-! ## The next event -/

theorem operating_not_detaching {state : State} (hstate : state ∈ operatingStates) :
    state ∉ detachingStates := by
  simp only [operatingStates, List.mem_cons, List.not_mem_nil, or_false] at hstate
  rcases hstate with rfl | rfl | rfl | rfl | rfl | rfl | rfl <;> decide

omit [DecidableEq W] in
theorem reduce_recreating {state : State} (hstate : state ∈ operatingStates) {event : Event W}
    (htype : event.type ∈ recreatingTypes) (hfits : fits state event.type = true) :
    (reduce state event).action = .recreateWindow := by
  obtain ⟨type, windowDestroyed, request⟩ := event
  change fits state type = true at hfits
  simp only [operatingStates, recreatingTypes, List.mem_cons, List.not_mem_nil, or_false]
    at hstate htype
  rcases hstate with rfl | rfl | rfl | rfl | rfl | rfl | rfl <;>
    rcases htype with rfl | rfl | rfl | rfl <;>
    first | rfl | exact absurd hfits (by decide)

/-- The result of an operation is the last event, and its state asks for it. -/
theorem Coherent.result (hcoherent : c.Coherent) (hstate : c.state ∈ operatingStates)
    {event : Event W} {events : List (Event W)} (hevents : c.events = event :: events) :
    event.type.isArrival = true ∨ fits c.state event.type = true ∧ events = [] := by
  have hother : ∀ {state : State}, c.state = state → state ∉ operatingStates → False := by
    rintro _ rfl hnot
    exact hnot hstate
  cases hcoherent with
  | operating _ hfits hawaits =>
      rcases Awaits.next c hawaits hevents with ⟨harrival, -⟩ | ⟨rfl, hempty⟩
      · exact Or.inl harrival
      · exact Or.inr ⟨hfits, hempty⟩
  | detached hdetached => exact (hother hdetached (by decide)).elim
  | prepared hprepared => exact (hother hprepared (by decide)).elim
  | attached hattached => exact (hother hattached (by decide)).elim
  | detaching hdetaching => exact (hother hdetaching (by decide)).elim
  | recreating hrecreating => exact (hother hrecreating (by decide)).elim

/-- A debt stays carried until its carrier is the next event. -/
theorem Carries.next {event : Event W} {events : List (Event W)} (hcarries : c.Carries)
    (hcoherent : c.Coherent) (hevents : c.events = event :: events) :
    c.state ∈ operatingStates ∧ event.type ∈ recreatingTypes ∧
        (reduce c.state event).action = .recreateWindow ∨
      Carries ({ c with events := events } : TaskbarLayoutCoordinator σ S W) ∧
        (c.state ∈ operatingStates ∧ event.type.isArrival = true ∨
          c.state = .detaching ∧
            (event.type = .detachCompleted → event.nativeWindowDestroyed = true)) := by
  rcases hcarries with ⟨hstate, carrier, hcarrier, htype⟩ | ⟨hstate, hcontext, hcompletes⟩
  · rw [hevents] at hcarrier
    rcases hcoherent.result hstate hevents with harrival | ⟨hfits, rfl⟩
    · refine Or.inr ⟨Or.inl ⟨hstate, carrier, ?_, htype⟩, Or.inl ⟨hstate, harrival⟩⟩
      refine (List.mem_cons.1 hcarrier).resolve_left ?_
      rintro rfl
      simp only [recreatingTypes, List.mem_cons, List.not_mem_nil, or_false] at htype
      rcases htype with htype | htype | htype | htype <;> rw [htype] at harrival <;> cases harrival
    · rw [List.mem_singleton.1 hcarrier] at htype
      exact Or.inl ⟨hstate, htype, reduce_recreating hstate htype hfits⟩
  · rw [hevents] at hcompletes
    exact Or.inr ⟨Or.inr ⟨hstate, hcontext, fun other hother =>
      hcompletes other (List.mem_cons_of_mem _ hother)⟩,
      Or.inr ⟨hstate, hcompletes event List.mem_cons_self⟩⟩

theorem Coherent.requested (hcoherent : c.Coherent) (hstate : c.state = .prepared) :
    c.request.isSome := by
  cases hcoherent with
  | prepared _ _ hready => rw [hready.request, Option.isSome_some]
  | operating hoperating =>
      rw [hstate] at hoperating
      exact absurd hoperating (by decide)
  | _ hother =>
      rw [hstate] at hother
      cases hother

/-- Where a detachment can begin there is someone to ask for a new window. -/
theorem Coherent.provided (hcoherent : c.Coherent) (hequipped : c.Equipped)
    (hactive : c.state ∈ activeStates) : c.attachment.isSome ∨ c.request.isSome := by
  cases hcoherent with
  | prepared _ _ hready => exact Or.inl (by rw [hready.attachment, Option.isSome_some])
  | attached _ _ hattachment => exact Or.inl hattachment
  | operating hoperating => exact Or.inr (hequipped.request hoperating)
  | _ hother =>
      rw [hother] at hactive
      exact absurd hactive (by decide)

variable {event : Event W} {events : List (Event W)}

omit [DecidableEq S] [DecidableEq W] in
/-- A debt is carried by an operation or by a detachment. -/
theorem Carries.engaged (hcarries : c.Carries) :
    c.state ∈ operatingStates ∨ c.state = .detaching :=
  hcarries.imp And.left And.left

/-- An operation that carries a debt ends with a result that asks for a window. -/
theorem Carries.awaited (hcarries : c.Carries) (hcoherent : c.Coherent)
    (hevents : c.events = event :: events) (hstate : c.state ∈ operatingStates) :
    event.type.isArrival = true ∨ event.type ∈ recreatingTypes := by
  rcases hcarries.next hcoherent hevents with
    ⟨-, hrecreating, -⟩ | ⟨-, ⟨-, harrival⟩ | ⟨hdetaching, -⟩⟩
  · exact Or.inr hrecreating
  · exact Or.inl harrival
  · rw [hdetaching] at hstate
    exact absurd hstate (by decide)

theorem active_not_detaching {state : State} (hstate : state ∈ activeStates) :
    state ∉ detachingStates := by
  intro hdetaching
  simp only [detachingStates, List.mem_cons, List.not_mem_nil, or_false] at hdetaching
  rcases hdetaching with rfl | rfl <;> exact absurd hstate (by decide)

/-- No detachment begins while a debt is carried. -/
theorem Carries.not_begun (hcarries : c.Carries) (hcoherent : c.Coherent)
    (hevents : c.events = event :: events) (hyields : c.Yields .process)
    (hstate : c.state ∈ activeStates)
    (htype : event.type = .detachRequested ∨ event.type = .hostInvalidated ∨
      event.type = .operationNeedsDetach) : False := by
  have hquiet := active_not_detaching hstate
  rcases hcarries.next hcoherent hevents with
    ⟨-, hrecreating, -⟩ | ⟨hcarried, ⟨-, harrival⟩ | ⟨hdetaching, -⟩⟩
  · rcases htype with htype | htype | htype <;> rw [htype] at hrecreating <;>
      exact absurd hrecreating (by decide)
  · -- the release is in front of the result that asks for a window
    have hrelease : event.type = .detachRequested ∨ event.type = .hostInvalidated := by
      rcases htype with htype | htype | htype
      · exact Or.inl htype
      · exact Or.inr htype
      · rw [htype] at harrival
        cases harrival
    rcases hcarried with ⟨-, carrier, hcarrier, hrecreating⟩ | ⟨hdetaching, -⟩
    · apply hyields hstate
      · rw [hevents]
        exact decide_eq_true hrelease
      · rw [hevents]
        exact List.any_eq_true.2 ⟨carrier, List.mem_cons_of_mem _ hcarrier,
          decide_eq_true hrecreating⟩
    · exact hquiet (hdetaching ▸ by decide)
  · exact hquiet (hdetaching ▸ by decide)

omit [DecidableEq S] [DecidableEq W] in
/-- Nothing is owed outside of an operation and a detachment. -/
theorem unowed_of_idle (hcarries : owed = true → c.Carries) (hidle : c.state ∉ operatingStates)
    (hother : c.state ≠ .detaching) : owed = false := by
  rw [Bool.eq_false_iff]
  intro howed
  exact (hcarries howed).engaged.elim hidle hother

/-- Nothing is owed when an operation ends with a result that asks for no window. -/
theorem unowed_of_result (hcoherent : c.Coherent) (hcarries : owed = true → c.Carries)
    (hevents : c.events = event :: events) (hstate : c.state ∈ operatingStates)
    (hresult : event.type.isArrival = false) (htype : event.type ∉ recreatingTypes) :
    owed = false := by
  rw [Bool.eq_false_iff]
  intro howed
  rcases (hcarries howed).awaited hcoherent hevents hstate with harrival | hrecreating
  · rw [harrival] at hresult
    cases hresult
  · exact htype hrecreating

/-! ### The rows that need what is owed -/

section Rows

variable (hcoherent : c.Coherent) (hequipped : c.Equipped) (hcarries : owed = true → c.Carries)
  (hevents : c.events = event :: events)
include hcoherent hequipped hcarries hevents

theorem progress_finalizedRow
    (hstate : c.state = .prepared ∨
      c.state ∈ operatingStates ∧ event.type = .operationPrepared) :
    Progress owed recreated c
      (runFinalize { c with events := events, state := .finalizing } calls) := by
  have hfacts : owed = false ∧ c.state ∉ detachingStates ∧ c.request.isSome := by
    rcases hstate with hstate | ⟨hstate, htype⟩
    · refine ⟨unowed_of_idle hcarries ?_ ?_, ?_, hcoherent.requested hstate⟩ <;> rw [hstate] <;>
        decide
    · refine ⟨unowed_of_result hcoherent hcarries hevents hstate ?_ ?_,
        operating_not_detaching hstate, hequipped.request hstate⟩ <;> rw [htype] <;> decide
  obtain ⟨rfl, hdetaching, hrequest⟩ := hfacts
  obtain ⟨between, type, hposted, htold⟩ := @runFinalize_told σ S W
    { c with events := events, state := .finalizing } calls _
  rw [hposted]
  exact progress_operated htold rfl (hcoherent.idle hdetaching).1
    (fun other hother => hequipped.supplied other (hevents ▸ List.mem_cons_of_mem _ hother))
    (by decide : State.finalizing ∈ _) hrequest

theorem progress_begunRow (hyields : c.Yields .process) (hstate : c.state ∈ activeStates)
    (htype : event.type = .detachRequested ∨ event.type = .hostInvalidated ∨
      event.type = .operationNeedsDetach) (cause : DetachmentCause) :
    Progress owed recreated c
      (beginDetaching { c with events := events, state := .detaching } calls cause) := by
  have hrest : ∀ other ∈ events, other ∈ c.events := fun other hother =>
    hevents ▸ List.mem_cons_of_mem _ hother
  have hquiet := active_not_detaching hstate
  obtain rfl : owed = false := by
    rw [Bool.eq_false_iff]
    intro howed
    exact (hcarries howed).not_begun hcoherent hevents hyields hstate htype
  have hcompleted : ∀ other ∈ events, other.type ≠ .detachCompleted :=
    fun other hother hcompletes =>
      (hcoherent.idle hquiet).2.2 ⟨other, hrest other hother, hcompletes⟩
  have hbegun := @progress_begun σ S W { c with events := events, state := .detaching } recreated
    calls rfl (fun other hother => hequipped.supplied other (hrest other hother))
    (hcoherent.provided hequipped hstate) hcompleted cause
  exact hbegun.before rfl

theorem progress_finishedRow
    (hstate : c.state = .detaching ∧ event.type = .detachCompleted ∧
      event.nativeWindowDestroyed = false ∨ c.state = .recreatingAfterDetach) :
    Progress owed recreated c
      (finishDetaching { c with events := events, state := .detached }) := by
  obtain rfl : owed = false := by
    rcases hstate with ⟨hdetaching, hcompletes, hpreserved⟩ | hrecreating
    · rw [Bool.eq_false_iff]
      intro howed
      rcases (hcarries howed).next hcoherent hevents with
        ⟨hoperating, -⟩ | ⟨-, ⟨hoperating, -⟩ | ⟨-, hdestroyed⟩⟩
      · rw [hdetaching] at hoperating
        exact absurd hoperating (by decide)
      · rw [hdetaching] at hoperating
        exact absurd hoperating (by decide)
      · rw [hdestroyed hcompletes] at hpreserved
        cases hpreserved
    · apply unowed_of_idle hcarries <;> rw [hrecreating] <;> decide
  have hfinished := @progress_finished σ S W { c with events := events, state := .detached }
    recreated ⟨fun other hother => hequipped.supplied other (hevents ▸ List.mem_cons_of_mem _ hother),
      fun hoperating => absurd hoperating (by decide : State.detached ∉ operatingStates),
      hequipped.context⟩ rfl
  exact hfinished.before rfl

end Rows

/-- Whatever the next event is, the debt is carried on or paid off. -/
theorem process_progress (hcoherent : c.Coherent) (hequipped : c.Equipped)
    (hcarries : owed = true → c.Carries) (hevents : c.events = event :: events)
    (htimely : c.Timely .process) (hyields : c.Yields .process) :
    Progress owed (c.recreates .process) c (c.step calls .process) := by
  have hhead : event ∈ c.events := hevents ▸ List.mem_cons_self
  have hrest : ∀ other ∈ events, other ∈ c.events := fun other hother =>
    hevents ▸ List.mem_cons_of_mem _ hother
  have hstep : c.step calls .process =
      ({ c with events := events, state := (reduce c.state event).nextState } :
        TaskbarLayoutCoordinator σ S W).execute calls (reduce c.state event).action event := by
    rw [step, hevents]
    rfl
  have hsupplied : ∀ other ∈ events, other.type = .acquireRequested → other.attachRequest.isSome :=
    fun other hother => hequipped.supplied other (hrest other hother)
  have hrow := reduce_row c.state event
  have hnext := fun howed => (hcarries howed).next hcoherent hevents
  have hengaged : c.state ∈ detachingStates → c.detaching.isSome := fun hstate =>
    Option.isSome_iff_exists.2 (hcoherent.engaged hstate)
  have hidle : c.state ∉ detachingStates → c.detaching = none := fun hstate =>
    (hcoherent.idle hstate).1
  rw [hstep, recreates_process c hevents]
  generalize reduce c.state event = transition at hrow hnext ⊢
  have hkept : owed = true → transition.action ≠ .recreateWindow →
      Carries ({ c with events := events } : TaskbarLayoutCoordinator σ S W) := by
    intro howed hother
    rcases hnext howed with ⟨-, -, haction⟩ | ⟨hcarried, -⟩
    · exact absurd haction hother
    · exact hcarried
  cases hrow with
  | ignored =>
      exact .of_carried ⟨hsupplied, hequipped.request, hequipped.context⟩ rfl (hkept · (by rintro ⟨⟩))
  | accepted hstate htype =>
      obtain rfl : owed = false := by
        apply unowed_of_idle hcarries <;> rcases hstate with hstate | hstate <;> rw [hstate] <;> decide
      obtain ⟨between, type, hposted, htold⟩ := @runPrepare_told σ S W
        { c with events := events, state := .preparing, request := event.attachRequest } calls _ _
      change Progress false _ c (runPrepare { c with
        events := events, state := .preparing, request := event.attachRequest } calls)
      rw [hposted]
      refine progress_operated htold rfl (hidle ?_) hsupplied (by decide : State.preparing ∈ _)
        (hequipped.supplied event hhead htype)
      rcases hstate with hstate | hstate <;> rw [hstate] <;> decide
  | @prepared next hstate hanswer htype hprepares =>
      obtain rfl : owed = false :=
        unowed_of_result hcoherent hcarries hevents hstate hanswer htype
      obtain ⟨between, type, hposted, htold⟩ := @runPrepare_told σ S W
        { c with events := events, state := next } calls _ _
      change Progress false _ c (runPrepare { c with events := events, state := next } calls)
      rw [hposted]
      have hmem : next ∈ operatingStates := by
        rcases hprepares with rfl | rfl <;> decide
      exact progress_operated htold rfl (hidle (operating_not_detaching hstate)) hsupplied hmem
        (hequipped.request hstate)
  | finalized hstate => exact progress_finalizedRow hcoherent hequipped hcarries hevents hstate
  | completed hstate hanswer htype hends haction =>
      obtain rfl : owed = false := by
        by_cases hoperating : c.state ∈ operatingStates
        · exact unowed_of_result hcoherent hcarries hevents hoperating (hanswer hoperating) htype
        · exact unowed_of_idle hcarries hoperating fun hdetaching => hstate (hdetaching ▸ by decide)
      exact (progress_completed (c := { c with events := events })
        ⟨hsupplied, hequipped.request, hequipped.context⟩ hends haction).before rfl
  | reported hstate =>
      exact .of_carried ⟨hsupplied, fun hoperating =>
        absurd hstate (operating_not_detaching hoperating), hequipped.context⟩ rfl (hkept · (by rintro ⟨⟩))
  | @recreated next hstate hrecreating =>
      have hrequest := hequipped.request hstate
      have hrecreated := @progress_recreated σ S W
        { c with events := events, state := next } owed calls
        ⟨hsupplied, fun _ => hrequest, hequipped.context⟩ hrequest
      change Progress owed c.request.isSome c _
      rw [hrequest]
      exact hrecreated.before rfl
  | recreatedDetached hstate htype =>
      have hcontext := hengaged (hstate ▸ by decide)
      have hrecreated := @progress_recreatedDetached σ S W
        { c with events := events, state := .recreatingAfterDetach } owed calls
        ⟨hsupplied, fun hoperating => absurd hoperating (by decide :
          State.recreatingAfterDetach ∉ operatingStates), hequipped.context⟩ rfl hcontext
      have hwindow : c.detaching.any (·.recreateWindow) = true := by
        obtain ⟨context, hengaged⟩ := Option.isSome_iff_exists.1 hcontext
        rw [hengaged]
        exact hequipped.context context hengaged
      change Progress owed (c.detaching.any (·.recreateWindow)) c _
      rw [hwindow]
      exact hrecreated.before rfl
  | begun hstate htype haction =>
      have hbegun := fun cause => @progress_begunRow σ S W c owed false calls _ _ _ _ hcoherent
        hequipped hcarries hevents hyields hstate htype cause
      rcases haction with rfl | rfl
      · exact hbegun .userRequested
      · exact hbegun .hostInvalidated
  | escalated hstate =>
      exact (@progress_escalated σ S W { c with events := events } owed false _
        ⟨hsupplied, hequipped.request, hequipped.context⟩ hstate
        (hengaged (hstate ▸ by decide)) (hkept · (by rintro ⟨⟩))).before rfl
  | scheduled hstate =>
      exact .of_carried ⟨hsupplied, hequipped.request, hequipped.context⟩ rfl (hkept · (by rintro ⟨⟩))
  | advanced hstate htype =>
      have hcompleted : ∀ other ∈ events, other.type ≠ .detachCompleted := by
        intro other hother hcompletes
        refine htimely ⟨hstate, ?_, ?_⟩
        · rw [hevents]
          exact decide_eq_true htype
        · exact List.any_eq_true.2 ⟨other, hrest other hother, decide_eq_true hcompletes⟩
      exact (@progress_advanced σ S W { c with events := events } owed false calls _ _
        ⟨hsupplied, hequipped.request, hequipped.context⟩ hstate
        (hengaged (hstate ▸ by decide)) hcompleted (hkept · (by rintro ⟨⟩))).before rfl
  | finished hstate => exact progress_finishedRow hcoherent hequipped hcarries hevents hstate
  | notified hstate =>
      obtain rfl : owed = false := by
        apply unowed_of_idle hcarries <;> rw [hstate] <;> decide
      exact (@progress_notified σ S W { c with events := events } false _
        ⟨hsupplied, hequipped.request, hequipped.context⟩).before rfl

/-! ## Runs -/

/-- The invariant of a run: what is owed is carried. -/
structure Watched (owed : Bool) (c : TaskbarLayoutCoordinator σ S W) : Prop where
  coherent : c.Coherent
  equipped : c.Equipped
  carries : owed = true → c.Carries

/-- What arrives while nothing is processed pays off nothing and closes nothing. -/
theorem progress_raise (hwatched : Watched owed c) (hempty : c.events = []) (arrival : Arrival W) :
    Progress owed false c (c.raise arrival) := by
  have harrived := raise_arrived c arrival
  obtain ⟨added, hlog, hadded, -⟩ := harrived.log
  obtain ⟨raised, hevents, -, hraised⟩ := harrived.events
  have hsupplied := raise_supplied c arrival hwatched.equipped.supplied
  obtain ⟨last, events, timer, log, hsame⟩ := harrived.same
  have hquiet : ∀ entry ∈ added, entry.destroys = false ∧ entry.closes = false := by
    intro entry hentry
    obtain ⟨holding, rfl⟩ := hadded entry hentry
    exact ⟨rfl, rfl⟩
  refine .of_open ⟨hsupplied, ?_, ?_⟩ hlog (fun entry hentry => (hquiet entry hentry).2) ?_
  · rw [hsame]
    exact hwatched.equipped.request
  · rw [hsame]
    exact hwatched.equipped.context
  · rintro - (howed | ⟨entry, hentry, hdestroys⟩)
    · rcases hwatched.carries howed with ⟨-, carrier, hcarrier, -⟩ | ⟨hstate, hcontext, -⟩
      · rw [hempty] at hcarrier
        cases hcarrier
      · refine Or.inr ⟨?_, ?_, fun event hevent hcompletes => ?_⟩
        · rw [hsame]
          exact hstate
        · rw [hsame]
          exact hcontext
        · rw [hevents, hempty, List.nil_append] at hevent
          have harrival := hraised event hevent
          rw [hcompletes] at harrival
          cases harrival
    · rw [(hquiet entry hentry).1] at hdestroys
      cases hdestroys

/-- What the observer takes, or is told again, changes nothing. -/
theorem progress_told (hwatched : Watched owed c) (notifications : List DetachEvent)
    (scheduled : Bool) : Progress owed recreated c
      { c with notifications := notifications, hostRefreshScheduled := scheduled } :=
  .of_carried ⟨hwatched.equipped.supplied, hwatched.equipped.request, hwatched.equipped.context⟩ rfl
    hwatched.carries

theorem step_progress (hwatched : Watched owed c) (move : Move W) (htimely : c.Timely move)
    (hyields : c.Yields move) : Progress owed (c.recreates move) c (c.step calls move) := by
  have hsame : ∀ {recreated}, Progress owed recreated c c := .of_carried hwatched.equipped rfl
    hwatched.carries
  cases move with
  | process =>
      cases hevents : c.events with
      | nil =>
          rw [step, hevents]
          exact hsame
      | cons event events =>
          exact process_progress hwatched.coherent hwatched.equipped hwatched.carries hevents
            htimely hyields
  | arrive arrival =>
      rw [step]
      split_ifs with hempty
      · exact progress_raise hwatched (List.isEmpty_iff.1 hempty) arrival
      · exact hsame
  | refresh =>
      rw [step]
      split_ifs
      · exact progress_told hwatched _ false
      · exact hsame
  | notify =>
      rw [step]
      split_ifs
      · exact progress_told hwatched _ c.hostRefreshScheduled
      · exact hsame

theorem step_watched (hwatched : Watched owed c) (move : Move W) (htimely : c.Timely move)
    (hyields : c.Yields move) :
    Obligation.Sound Mark.obliges Mark.discharges Mark.closes owed (seen calls c move) ∧
      Watched (Obligation.due Mark.obliges Mark.discharges owed (seen calls c move))
        (c.step calls move) := by
  have hprogress := @step_progress σ S W c owed calls _ _ hwatched move htimely hyields
  obtain ⟨hsound, hcarries⟩ := hprogress.seen
  exact ⟨hsound, step_coherent hwatched.coherent move htimely, hprogress.equipped, hcarries⟩

theorem construct_watched (strategies : List S) (shell : σ) :
    Watched false (construct strategies shell : TaskbarLayoutCoordinator σ S W) :=
  ⟨construct_coherent strategies shell, ⟨by rintro _ ⟨⟩, fun hoperating => absurd hoperating
    (by decide : State.detached ∉ operatingStates), by rintro _ ⟨⟩⟩, by rintro ⟨⟩⟩

/-- As long as no timer is late and no release overtakes a result that asks for a new window,
every window that is destroyed is made anew before anything follows that needs it; and a move
that is seen to ask for a new window lets the shell answer exactly that. -/
theorem destroyed_window_recreated (calls : TaskbarShell σ S W) (strategies : List S) (shell : σ)
    (moves : List (Move W))
    (hguarded : Guarded (step calls) (fun c move => c.Timely move ∧ c.Yields move)
      (construct strategies shell) moves) :
    RecreatesWindows calls strategies shell moves ∧
      ∀ (c : TaskbarLayoutCoordinator σ S W) move, c.recreates move = true →
        (c.step calls move).shell = (calls.recreateWindow c.shell).shell := by
  have hstep : ∀ owed (c : TaskbarLayoutCoordinator σ S W) move, Watched owed c →
      c.Timely move ∧ c.Yields move →
        Obligation.Sound Mark.obliges Mark.discharges Mark.closes owed (seen calls c move) ∧
          Watched (Obligation.due Mark.obliges Mark.discharges owed (seen calls c move))
            (c.step calls move) :=
    fun owed c move hwatched hguard => step_watched hwatched move hguard.1 hguard.2
  have hsound := Obligation.sound_run hstep (construct_watched strategies shell) hguarded
  exact ⟨hsound.met, fun c _ hrecreates => recreates_shell calls c hrecreates⟩

/-- The release destroys the window of an attachment. -/
theorem destroyed_window_recreated_attached :
    RecreatesWindows scripted [0]
      [{}, {}, {}, {}, {}, { release := .nativeWindowDestroyed }]
      (attaching ++ overtakenRelease) :=
  (destroyed_window_recreated scripted [0] _ _ (by decide +kernel)).1

/-- A commit is taken back and destroys the window; meanwhile the presentation is released, or
the host is lost.  The result that asks for a new window then finds a detachment under way
and is dropped, and the detachment knows nothing of the window. -/
theorem overtaken_result_loses_window :
    let moves : List (Move Unit) := [.arrive (.prepareAttach (some ())), .process, .process,
      .process, .process, .arrive .timeout, .process, .process]
    let during := fun arrival : Arrival Unit =>
      [{}, { attach := .invalid }, {},
        ({ release := .nativeWindowDestroyed, raised := [arrival] } : Answer)]
    ¬RecreatesWindows scripted [0] (during .detach) moves ∧
      ¬RecreatesWindows scripted [0] (during .hostInvalidated) moves := by
  intro moves during
  constructor
  · intro hmet
    obtain ⟨answer, hanswer, -⟩ := hmet
      [.happened (.committed 0 () .invalid), .happened (.hidden ())]
      (.happened (.rolledBack 0 .nativeWindowDestroyed))
      [.happened (.published ⟨.completed, .presentationReleased⟩), .idle, .idle, .idle, .idle]
      (by decide +kernel) rfl [] _ _ rfl rfl
    cases hanswer
  · intro hmet
    obtain ⟨answer, hanswer, hdischarges⟩ := hmet
      [.happened (.committed 0 () .invalid), .happened (.hidden ()), .happened (.received false)]
      (.happened (.rolledBack 0 .nativeWindowDestroyed))
      [.happened (.published ⟨.started, .hostInvalidated⟩), .happened (.invalidated 0 .detached),
        .happened (.published ⟨.completed, .hostInvalidated⟩), .idle]
      (by decide +kernel) rfl
      [.happened (.published ⟨.started, .hostInvalidated⟩), .happened (.invalidated 0 .detached)]
      _ _ rfl rfl
    simp only [List.mem_cons, List.not_mem_nil, or_false] at hanswer
    rcases hanswer with rfl | rfl <;> cases hdischarges

end TaskbarLayoutCoordinator

end UwfManager
