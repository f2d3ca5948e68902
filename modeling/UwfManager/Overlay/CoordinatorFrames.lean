import UwfManager.Overlay.TaskbarLayoutCoordinator

/-!
# What the operations of the coordinator leave alone

While a strategy or a window answers, the coordinator only takes arrivals into its
queue.  Each operation therefore keeps the state and the queue that it has found and
adds to the queue what has arrived and, at its end, one result.
-/

namespace UwfManager

open TaskbarLayoutCoordinator (Arrival)

variable {σ S W : Type*}

def Reply.effect {α : Type*} (reply : Reply σ W α) : List (Arrival W) × σ :=
  (reply.raised, reply.shell)

/-- What one answer of the shell can do. -/
inductive TaskbarShell.Effect (calls : TaskbarShell σ S W) (shell : σ) :
    List (Arrival W) × σ → Prop
  | prepareAttach (strategy : S) (window : Option W) :
      Effect calls shell (calls.prepareAttach strategy window shell).effect
  | commit (strategy : S) : Effect calls shell (calls.commit strategy shell).effect
  | finalize (strategy : S) : Effect calls shell (calls.finalize strategy shell).effect
  | rollback (strategy : S) : Effect calls shell (calls.rollback strategy shell).effect
  | detach (strategy : S) : Effect calls shell (calls.detach strategy shell).effect
  | invalidate (strategy : S) : Effect calls shell (calls.invalidate strategy shell).effect
  | showWindow (window : W) : Effect calls shell (calls.showWindow window shell).effect
  | hideWindow (window : W) : Effect calls shell (calls.hideWindow window shell).effect
  | recreateWindow : Effect calls shell (calls.recreateWindow shell).effect

/-- The shell raises no more than its budget, which nothing fills up again. -/
def TaskbarShell.RaisesFinitely (calls : TaskbarShell σ S W) (budget : σ → ℕ) : Prop :=
  ∀ shell effect, calls.Effect shell effect →
    effect.1.length + budget effect.2 ≤ budget shell

namespace TaskbarLayoutCoordinator

/-- The events that arrive from outside. -/
def EventType.isArrival : EventType → Bool
  | acquireRequested | activateRequested | detachRequested | hostInvalidated | detachDue => true
  | _ => false

variable (c : TaskbarLayoutCoordinator σ S W)

/-- The results and the notices of a detachment that wait in the queue. -/
def pendingResults : List EventType :=
  (c.events.map (·.type)).filter fun type => !type.isArrival

/-- The arrivals that wait in the queue. -/
def pendingArrivals : ℕ := c.events.countP fun event => event.type.isArrival

/-- An entry that no observer is told about. -/
def LogEntry.IsQuiet : LogEntry S W → Prop
  | published _ | refreshScheduled => False
  | _ => True

/-- Every host that was invalidated meanwhile is still to be dealt with. -/
def Heard (after : TaskbarLayoutCoordinator σ S W) (added : List (LogEntry S W)) : Prop :=
  ∀ holding, .received holding ∈ added → .hostInvalidated ∈ after.events.map (·.type)

/-- No timer runs, and none has fired since. -/
def Unarmed (after : TaskbarLayoutCoordinator σ S W) (events : List (Event W)) : Prop :=
  after.asyncTimer = none ∧ ∀ event ∈ after.events, event.type = .detachDue → event ∈ events

/-- What every operation keeps until it posts its result. -/
structure Frame (calls : TaskbarShell σ S W) (before after : TaskbarLayoutCoordinator σ S W) :
    Prop where
  strategies : after.strategies = before.strategies
  state : after.state = before.state
  detaching : after.detaching = before.detaching
  hostRefreshScheduled : after.hostRefreshScheduled = before.hostRefreshScheduled
  notifications : after.notifications = before.notifications
  lastAttachResult : after.lastAttachResult = before.lastAttachResult ∨
    after.lastAttachResult = .failed
  events : ∃ raised, after.events = before.events ++ raised ∧
    ∀ event ∈ raised, event.type.isArrival = true
  timer : after.asyncTimer = before.asyncTimer ∨
    ∃ event ∈ after.events, event.type = .detachDue
  unarmed : before.asyncTimer = none → after.Unarmed before.events
  finite : ∀ budget, calls.RaisesFinitely budget →
    after.pendingArrivals + budget after.shell ≤ before.pendingArrivals + budget before.shell
  log : ∃ added, after.log = before.log ++ added ∧ (∀ entry ∈ added, entry.IsQuiet) ∧
    after.Heard added

theorem exists_append_nil {α : Type*} (items : List α) (property : α → Prop) :
    ∃ added, items = items ++ added ∧ ∀ item ∈ added, property item :=
  ⟨[], (List.append_nil _).symm, fun _ hitem => absurd hitem List.not_mem_nil⟩

theorem exists_log_refl : ∃ added, c.log = c.log ++ added ∧
    (∀ entry ∈ added, entry.IsQuiet) ∧ c.Heard added :=
  ⟨[], (List.append_nil _).symm, fun _ hentry => absurd hentry List.not_mem_nil,
    fun _ hentry => absurd hentry List.not_mem_nil⟩

variable {calls : TaskbarShell σ S W} {first second third : TaskbarLayoutCoordinator σ S W}

/-- What has been heard stays heard while the queue grows. -/
theorem Heard.append {added : List (LogEntry S W)} {raised : List (Event W)}
    (hheard : first.Heard added) (hevents : second.events = first.events ++ raised) :
    second.Heard added := by
  intro holding hentry
  rw [hevents, List.map_append]
  exact List.mem_append_left _ (hheard holding hentry)

theorem Heard.and {added others : List (LogEntry S W)} (hadded : first.Heard added)
    (hothers : first.Heard others) : first.Heard (added ++ others) :=
  fun holding hentry => (List.mem_append.1 hentry).elim (hadded holding) (hothers holding)

theorem Frame.refl (c : TaskbarLayoutCoordinator σ S W) : Frame calls c c where
  strategies := rfl
  state := rfl
  detaching := rfl
  hostRefreshScheduled := rfl
  notifications := rfl
  lastAttachResult := Or.inl rfl
  events := exists_append_nil _ _
  timer := Or.inl rfl
  unarmed hnone := ⟨hnone, fun _ hevent _ => hevent⟩
  finite _ _ := Nat.le_refl _
  log := c.exists_log_refl

theorem Frame.trans (hfirst : Frame calls first second) (hsecond : Frame calls second third) :
    Frame calls first third where
  strategies := hsecond.strategies.trans hfirst.strategies
  state := hsecond.state.trans hfirst.state
  detaching := hsecond.detaching.trans hfirst.detaching
  hostRefreshScheduled := hsecond.hostRefreshScheduled.trans hfirst.hostRefreshScheduled
  notifications := hsecond.notifications.trans hfirst.notifications
  lastAttachResult := by
    rcases hsecond.lastAttachResult with hsame | hfailed
    · rw [hsame]
      exact hfirst.lastAttachResult
    · exact Or.inr hfailed
  events := by
    obtain ⟨raised, hevents, hraised⟩ := hfirst.events
    obtain ⟨more, hevents', hmore⟩ := hsecond.events
    refine ⟨raised ++ more, by rw [hevents', hevents, List.append_assoc], ?_⟩
    intro event hevent
    exact (List.mem_append.1 hevent).elim (hraised event) (hmore event)
  timer := by
    rcases hsecond.timer with hsame | hdue
    · rw [hsame]
      refine hfirst.timer.imp_right ?_
      rintro ⟨event, hevent, hdue⟩
      obtain ⟨more, hevents, -⟩ := hsecond.events
      exact ⟨event, hevents ▸ List.mem_append_left _ hevent, hdue⟩
    · exact Or.inr hdue
  unarmed hnone := by
    obtain ⟨hnone', hfirst'⟩ := hfirst.unarmed hnone
    obtain ⟨hnone'', hsecond'⟩ := hsecond.unarmed hnone'
    exact ⟨hnone'', fun event hevent hdue => hfirst' event (hsecond' event hevent hdue) hdue⟩
  finite budget hbudget := Nat.le_trans (hsecond.finite budget hbudget) (hfirst.finite budget hbudget)
  log := by
    obtain ⟨added, hlog, hadded, hheard⟩ := hfirst.log
    obtain ⟨more, hlog', hmore, hheard'⟩ := hsecond.log
    obtain ⟨raised, hevents, -⟩ := hsecond.events
    refine ⟨added ++ more, by rw [hlog', hlog, List.append_assoc], ?_, ?_⟩
    · intro entry hentry
      exact (List.mem_append.1 hentry).elim (hadded entry) (hmore entry)
    · exact (hheard.append hevents).and hheard'

/-- The results that wait are not touched. -/
theorem Frame.pendingResults (hframe : Frame calls first second) :
    second.pendingResults = first.pendingResults := by
  obtain ⟨raised, hevents, hraised⟩ := hframe.events
  have hnone : (raised.map (·.type)).filter (fun type => !type.isArrival) = [] := by
    rw [List.filter_eq_nil_iff]
    intro type htype
    obtain ⟨event, hevent, rfl⟩ := List.mem_map.1 htype
    rw [hraised event hevent]
    exact Bool.false_ne_true
  rw [TaskbarLayoutCoordinator.pendingResults, TaskbarLayoutCoordinator.pendingResults, hevents,
    List.map_append, List.filter_append, hnone, List.append_nil]

/-! ## One answer -/

/-- The coordinator after some arrivals: only these parts of it can differ. -/
structure Arrived (count : ℕ) (before after : TaskbarLayoutCoordinator σ S W) : Prop where
  same : ∃ last events timer log, after =
    { before with lastAttachResult := last, events := events, asyncTimer := timer, log := log }
  lastAttachResult : after.lastAttachResult = before.lastAttachResult ∨
    after.lastAttachResult = .failed
  events : ∃ raised, after.events = before.events ++ raised ∧ raised.length ≤ count ∧
    ∀ event ∈ raised, event.type.isArrival = true
  timer : after.asyncTimer = before.asyncTimer ∨
    ∃ event ∈ after.events, event.type = .detachDue
  unarmed : before.asyncTimer = none → after.Unarmed before.events
  log : ∃ added, after.log = before.log ++ added ∧
    (∀ entry ∈ added, ∃ holding, entry = .received holding) ∧ after.Heard added

theorem Arrived.refl (c : TaskbarLayoutCoordinator σ S W) : Arrived 0 c c where
  same := ⟨_, _, _, _, rfl⟩
  lastAttachResult := Or.inl rfl
  events := ⟨[], (List.append_nil _).symm, Nat.le_refl _, fun _ hevent => absurd hevent List.not_mem_nil⟩
  timer := Or.inl rfl
  unarmed hnone := ⟨hnone, fun _ hevent _ => hevent⟩
  log := ⟨[], (List.append_nil _).symm, fun _ hentry => absurd hentry List.not_mem_nil,
    fun _ hentry => absurd hentry List.not_mem_nil⟩

theorem Arrived.trans {count more : ℕ} (hfirst : Arrived count first second)
    (hsecond : Arrived more second third) : Arrived (count + more) first third where
  same := by
    obtain ⟨_, _, _, _, hsame⟩ := hfirst.same
    obtain ⟨last, events, timer, log, hsame'⟩ := hsecond.same
    exact ⟨last, events, timer, log, by rw [hsame', hsame]⟩
  lastAttachResult := by
    rcases hsecond.lastAttachResult with hsame | hfailed
    · rw [hsame]
      exact hfirst.lastAttachResult
    · exact Or.inr hfailed
  events := by
    obtain ⟨raised, hevents, hlength, hraised⟩ := hfirst.events
    obtain ⟨others, hevents', hlength', hothers⟩ := hsecond.events
    refine ⟨raised ++ others, by rw [hevents', hevents, List.append_assoc], ?_, ?_⟩
    · rw [List.length_append]
      exact Nat.add_le_add hlength hlength'
    · intro event hevent
      exact (List.mem_append.1 hevent).elim (hraised event) (hothers event)
  timer := by
    rcases hsecond.timer with hsame | hdue
    · rw [hsame]
      refine hfirst.timer.imp_right ?_
      rintro ⟨event, hevent, hdue⟩
      obtain ⟨others, hevents, -⟩ := hsecond.events
      exact ⟨event, hevents ▸ List.mem_append_left _ hevent, hdue⟩
    · exact Or.inr hdue
  unarmed hnone := by
    obtain ⟨hnone', hfirst'⟩ := hfirst.unarmed hnone
    obtain ⟨hnone'', hsecond'⟩ := hsecond.unarmed hnone'
    exact ⟨hnone'', fun event hevent hdue => hfirst' event (hsecond' event hevent hdue) hdue⟩
  log := by
    obtain ⟨added, hlog, hadded, hheard⟩ := hfirst.log
    obtain ⟨others, hlog', hothers, hheard'⟩ := hsecond.log
    obtain ⟨raised, hevents, -⟩ := hsecond.events
    refine ⟨added ++ others, by rw [hlog', hlog, List.append_assoc], ?_, ?_⟩
    · intro entry hentry
      exact (List.mem_append.1 hentry).elim (hadded entry) (hothers entry)
    · exact (hheard.append hevents).and hheard'

/-- A posted arrival. -/
theorem arrived_post {type : EventType} (harrival : type.isArrival = true)
    (request : Option (AttachRequest W)) {last : AttachResult}
    (hlast : last = c.lastAttachResult ∨ last = .failed) {timer : Option ℕ}
    (htimer : timer = c.asyncTimer ∧ type ≠ .detachDue ∨ c.asyncTimer.isSome ∧ type = .detachDue)
    {log : List (LogEntry S W)}
    (hlog : ∀ entry ∈ log, type = .hostInvalidated ∧ ∃ holding, entry = .received holding) :
    Arrived 1 c { c with
      lastAttachResult := last
      events := c.events ++ [{ type := type, attachRequest := request }]
      asyncTimer := timer
      log := c.log ++ log } where
  same := ⟨_, _, _, _, rfl⟩
  lastAttachResult := hlast
  events := ⟨_, rfl, Nat.le_refl _, by
    intro event hevent
    rw [List.mem_singleton.1 hevent]
    exact harrival⟩
  timer := htimer.imp (·.1) fun hdue =>
    ⟨_, List.mem_append_right _ (List.mem_singleton_self _), hdue.2⟩
  unarmed hnone := by
    rcases htimer with ⟨hkept, hother⟩ | ⟨harmed, -⟩
    · refine ⟨hkept.trans hnone, fun event hevent hdue => ?_⟩
      rcases List.mem_append.1 hevent with hevent | hevent
      · exact hevent
      · rw [List.mem_singleton.1 hevent] at hdue
        exact absurd hdue hother
    · rw [hnone] at harmed
      cases harmed
  log := by
    refine ⟨log, rfl, fun entry hentry => (hlog entry hentry).2, ?_⟩
    intro holding hentry
    rw [List.map_append]
    apply List.mem_append_right
    rw [(hlog _ hentry).1]
    exact List.mem_singleton_self _

theorem Arrived.one (harrived : Arrived 0 first second) : Arrived 1 first second :=
  ⟨harrived.same, harrived.lastAttachResult,
    harrived.events.imp fun _ hevents => ⟨hevents.1, Nat.le_trans hevents.2.1 (Nat.zero_le 1), hevents.2.2⟩,
    harrived.timer, harrived.unarmed, harrived.log⟩

theorem raise_arrived (arrival : Arrival W) : Arrived 1 c (c.raise arrival) := by
  have hnone : ∀ type, ∀ entry ∈ ([] : List (LogEntry S W)),
      type = EventType.hostInvalidated ∧ ∃ holding, entry = .received holding :=
    fun _ _ hentry => absurd hentry List.not_mem_nil
  have hposted := fun (type : EventType) (harrival : type.isArrival = true)
      (request : Option (AttachRequest W)) (last : AttachResult)
      (hlast : last = c.lastAttachResult ∨ last = .failed) (hother : type ≠ .detachDue) =>
    @arrived_post σ S W c type harrival request last hlast c.asyncTimer (Or.inl ⟨rfl, hother⟩) []
      (hnone type)
  simp only [List.append_nil] at hposted
  cases arrival with
  | prepareAttach window =>
      cases window with
      | none => exact (Arrived.refl c).one
      | some window => exact hposted .acquireRequested rfl _ .failed (Or.inr rfl) (by rintro ⟨⟩)
  | activatePrepared => exact hposted .activateRequested rfl none .failed (Or.inr rfl) (by rintro ⟨⟩)
  | detach =>
      rw [raise]
      split_ifs
      · exact (Arrived.refl c).one
      · exact hposted .detachRequested rfl none _ (Or.inl rfl) (by rintro ⟨⟩)
  | hostInvalidated =>
      have hother : EventType.hostInvalidated ≠ .detachDue := (by rintro ⟨⟩)
      apply arrived_post _ rfl none (Or.inl rfl) (Or.inl ⟨rfl, hother⟩)
      intro entry hentry
      exact ⟨rfl, _, List.mem_singleton.1 hentry⟩
  | timeout =>
      rw [raise]
      split_ifs with harmed
      · have hdue := @arrived_post σ S W c .detachDue rfl none _ (Or.inl rfl) none
          (Or.inr ⟨harmed, rfl⟩) [] (hnone .detachDue)
        rw [List.append_nil] at hdue
        exact hdue
      · exact (Arrived.refl c).one

theorem foldl_raise_arrived (arrivals : List (Arrival W)) :
    Arrived arrivals.length c (arrivals.foldl raise c) := by
  induction arrivals generalizing c with
  | nil => exact Arrived.refl c
  | cons arrival rest ih =>
      rw [List.foldl_cons, List.length_cons, Nat.add_comm]
      exact (raise_arrived c arrival).trans (ih (c.raise arrival))

section Call

variable {α : Type*} (answer : σ → Reply σ W α)

theorem call_arrived : Arrived (answer c.shell).raised.length
    { c with shell := (answer c.shell).shell } (c.call answer).2 :=
  foldl_raise_arrived _ _

theorem call_eq : ∃ last events timer log, (c.call answer).2 =
    { c with
      lastAttachResult := last
      events := events
      asyncTimer := timer
      shell := (answer c.shell).shell
      log := log } := by
  obtain ⟨last, events, timer, log, hsame⟩ := (call_arrived c answer).same
  exact ⟨last, events, timer, log, hsame⟩

theorem call_frame (heffect : calls.Effect c.shell (answer c.shell).effect) :
    Frame calls c (c.call answer).2 := by
  have harrived := call_arrived c answer
  obtain ⟨last, events, timer, log, hsame⟩ := call_eq c answer
  obtain ⟨raised, hevents, hlength, hraised⟩ := harrived.events
  refine ⟨by rw [hsame], by rw [hsame], by rw [hsame], by rw [hsame], by rw [hsame],
    harrived.lastAttachResult, ⟨raised, hevents, hraised⟩, harrived.timer, harrived.unarmed,
    ?_, ?_⟩
  · intro budget hbudget
    have hspent := hbudget _ _ heffect
    have hcount : (c.call answer).2.pendingArrivals =
        c.pendingArrivals + raised.countP fun event => event.type.isArrival := by
      rw [pendingArrivals, hevents, List.countP_append]
      rfl
    have hle := List.countP_le_length (l := raised) (p := fun event => event.type.isArrival)
    have hshell : (c.call answer).2.shell = (answer c.shell).shell := by rw [hsame]
    rw [hcount, hshell]
    change (answer c.shell).raised.length + budget (answer c.shell).shell ≤ _ at hspent
    omega
  · obtain ⟨added, hlog, hadded, hheard⟩ := harrived.log
    refine ⟨added, hlog, ?_, hheard⟩
    intro entry hentry
    obtain ⟨holding, rfl⟩ := hadded entry hentry
    exact trivial

theorem call_shell : (c.call answer).2.shell = (answer c.shell).shell := by
  obtain ⟨_, _, _, _, hsame⟩ := call_eq c answer
  rw [hsame]

@[simp] theorem call_attachment : (c.call answer).2.attachment = c.attachment := by
  obtain ⟨_, _, _, _, hsame⟩ := call_eq c answer
  rw [hsame]

@[simp] theorem call_transaction : (c.call answer).2.transaction = c.transaction := by
  obtain ⟨_, _, _, _, hsame⟩ := call_eq c answer
  rw [hsame]

@[simp] theorem call_request : (c.call answer).2.request = c.request := by
  obtain ⟨_, _, _, _, hsame⟩ := call_eq c answer
  rw [hsame]

@[simp] theorem call_preparedStrategy :
    (c.call answer).2.preparedStrategy = c.preparedStrategy := by
  obtain ⟨_, _, _, _, hsame⟩ := call_eq c answer
  rw [hsame]

@[simp] theorem call_processIncompatibleStrategies :
    (c.call answer).2.processIncompatibleStrategies = c.processIncompatibleStrategies := by
  obtain ⟨_, _, _, _, hsame⟩ := call_eq c answer
  rw [hsame]

end Call

/-! ## The operations on one strategy or window -/

/-- What an operation holds is not part of the frame. -/
theorem Frame.inner (c : TaskbarLayoutCoordinator σ S W) (incompatible : List S)
    (request : Option (AttachRequest W)) (attachment : Option (ActiveAttachment S W))
    (preparedStrategy transaction : Option S) :
    Frame calls c { c with
      processIncompatibleStrategies := incompatible
      request := request
      attachment := attachment
      preparedStrategy := preparedStrategy
      transaction := transaction } :=
  ⟨rfl, rfl, rfl, rfl, rfl, Or.inl rfl, exists_append_nil _ _, Or.inl rfl,
    fun hnone => ⟨hnone, fun _ hevent _ => hevent⟩, fun _ _ => Nat.le_refl _, c.exists_log_refl⟩

/-- What a call of the coordinator itself records is no arrival. -/
theorem Frame.record (c : TaskbarLayoutCoordinator σ S W) {entry : LogEntry S W}
    (hquiet : entry.IsQuiet) (hcalled : ∀ holding, entry ≠ .received holding) :
    Frame calls c (c.record entry) :=
  ⟨rfl, rfl, rfl, rfl, rfl, Or.inl rfl, exists_append_nil _ _, Or.inl rfl,
    fun hnone => ⟨hnone, fun _ hevent _ => hevent⟩, fun _ _ => Nat.le_refl _, [entry], rfl, by
      intro other hother
      rw [List.mem_singleton.1 hother]
      exact hquiet, fun holding hentry => absurd (List.mem_singleton.1 hentry).symm
        (hcalled holding)⟩

variable (window : W) (strategy : S)

theorem hideWindow_frame : Frame calls c (c.hideWindow calls window) :=
  have hhidden : (LogEntry.hidden window : LogEntry S W).IsQuiet := trivial
  (Frame.record c hhidden (by rintro _ ⟨⟩)).trans (call_frame _ _ (.hideWindow window))

theorem commit_frame : Frame calls c (c.commit calls window strategy).2 :=
  (call_frame c _ (.commit strategy)).trans (Frame.record _ trivial (by rintro _ ⟨⟩))

theorem rollback_frame : Frame calls c (c.rollback calls strategy).2 :=
  (call_frame c _ (.rollback strategy)).trans (Frame.record _ trivial (by rintro _ ⟨⟩))

theorem detachStrategy_frame : Frame calls c (c.detachStrategy calls strategy).2 :=
  (call_frame c _ (.detach strategy)).trans (Frame.record _ trivial (by rintro _ ⟨⟩))

@[simp] theorem hideWindow_attachment :
    (c.hideWindow calls window).attachment = c.attachment := call_attachment _ _

@[simp] theorem hideWindow_transaction :
    (c.hideWindow calls window).transaction = c.transaction := call_transaction _ _

@[simp] theorem hideWindow_request :
    (c.hideWindow calls window).request = c.request := call_request _ _

@[simp] theorem hideWindow_preparedStrategy :
    (c.hideWindow calls window).preparedStrategy = c.preparedStrategy := call_preparedStrategy _ _

@[simp] theorem hideWindow_processIncompatibleStrategies :
    (c.hideWindow calls window).processIncompatibleStrategies = c.processIncompatibleStrategies :=
  call_processIncompatibleStrategies _ _

@[simp] theorem commit_attachment :
    (c.commit calls window strategy).2.attachment = c.attachment := call_attachment _ _

@[simp] theorem commit_transaction :
    (c.commit calls window strategy).2.transaction = c.transaction := call_transaction _ _

@[simp] theorem commit_request :
    (c.commit calls window strategy).2.request = c.request := call_request _ _

@[simp] theorem commit_processIncompatibleStrategies :
    (c.commit calls window strategy).2.processIncompatibleStrategies = c.processIncompatibleStrategies :=
  call_processIncompatibleStrategies _ _

@[simp] theorem rollback_attachment :
    (c.rollback calls strategy).2.attachment = c.attachment := call_attachment _ _

@[simp] theorem rollback_transaction :
    (c.rollback calls strategy).2.transaction = c.transaction := call_transaction _ _

@[simp] theorem rollback_request :
    (c.rollback calls strategy).2.request = c.request := call_request _ _

@[simp] theorem rollback_processIncompatibleStrategies :
    (c.rollback calls strategy).2.processIncompatibleStrategies =
      c.processIncompatibleStrategies :=
  call_processIncompatibleStrategies _ _

@[simp] theorem detachStrategy_transaction :
    (c.detachStrategy calls strategy).2.transaction = c.transaction := call_transaction _ _

@[simp] theorem detachStrategy_attachment :
    (c.detachStrategy calls strategy).2.attachment = c.attachment := call_attachment _ _

@[simp] theorem detachStrategy_request :
    (c.detachStrategy calls strategy).2.request = c.request := call_request _ _

@[simp] theorem detachStrategy_processIncompatibleStrategies :
    (c.detachStrategy calls strategy).2.processIncompatibleStrategies =
      c.processIncompatibleStrategies :=
  call_processIncompatibleStrategies _ _

variable [DecidableEq S] (incompatible : Bool)

/-- Marking a strategy changes the list of the incompatible ones only. -/
theorem markIf_eq : ∃ strategies, c.markIf incompatible strategy =
    { c with processIncompatibleStrategies := strategies } := by
  rw [markIf, markProcessIncompatible]
  split_ifs <;> exact ⟨_, rfl⟩

theorem markIf_frame : Frame calls c (c.markIf incompatible strategy) := by
  obtain ⟨strategies, hmarked⟩ := markIf_eq c strategy incompatible
  rw [hmarked]
  exact Frame.inner c _ _ _ _ _

end TaskbarLayoutCoordinator

end UwfManager
