import UwfManager.Overlay.CoordinatorTransitions

/-!
# Invalidated hosts

A host that is invalidated while something is held is answered by a round that invalidates
every strategy.  The round can be lost in two ways: it is closed by the completion of the
release that it has taken over, or it is never begun because the window of a release is
being made anew.
-/

namespace UwfManager

open TaskbarLayoutStrategy (AttachReadiness DetachResult)
open GuardedRun (Guarded)

namespace TaskbarLayoutCoordinator

variable {σ S W : Type*}

/-! ## What the log tells -/

/-- The strategies that a round for an invalidated host has invalidated so far; `none` while
no such round is announced. -/
def roundAfter : Option (List S) → LogEntry S W → Option (List S)
  | _, .published ⟨.started, .hostInvalidated⟩ => some []
  | _, .published ⟨.completed, _⟩ => none
  | some released, .invalidated strategy result =>
      if result = .failed then some released else some (strategy :: released)
  | round, _ => round

def round (log : List (LogEntry S W)) : Option (List S) := log.foldl roundAfter none

/-- A host was invalidated while something was held, and no round for it is complete. -/
def owedAfter : Bool → LogEntry S W → Bool
  | _, .received true => true
  | _, .published ⟨.completed, .hostInvalidated⟩ => false
  | owed, _ => owed

def owed (log : List (LogEntry S W)) : Bool := log.foldl owedAfter false

/-- Whenever a detachment is complete, an announced round has invalidated every strategy, and
an invalidated host is not told that only the presentation was released. -/
def Answered (strategies : List S) (log : List (LogEntry S W)) : Prop :=
  ∀ front reason back, log = front ++ .published ⟨.completed, reason⟩ :: back →
    (∀ released, round front = some released → strategies ⊆ released) ∧
      (owed front = true → reason = .hostInvalidated)

theorem round_snoc (log : List (LogEntry S W)) (entry : LogEntry S W) :
    round (log ++ [entry]) = roundAfter (round log) entry := by
  rw [round, List.foldl_append]
  rfl

theorem owed_snoc (log : List (LogEntry S W)) (entry : LogEntry S W) :
    owed (log ++ [entry]) = owedAfter (owed log) entry := by
  rw [owed, List.foldl_append]
  rfl

theorem answered_snoc {strategies : List S} {log : List (LogEntry S W)} {entry : LogEntry S W}
    (hanswered : Answered strategies log)
    (hentry : ∀ reason, entry = .published ⟨.completed, reason⟩ →
      (∀ released, round log = some released → strategies ⊆ released) ∧
        (owed log = true → reason = .hostInvalidated)) :
    Answered strategies (log ++ [entry]) := by
  intro front reason back hlog
  rcases List.eq_nil_or_concat back with rfl | ⟨rest, last, rfl⟩
  · obtain ⟨rfl, hlast⟩ := List.append_inj' hlog rfl
    injection hlast with hlast
    exact hentry reason hlast
  · rw [List.concat_eq_append, ← List.cons_append, ← List.append_assoc] at hlog
    obtain ⟨hlog, -⟩ := List.append_inj' hlog rfl
    exact hanswered front reason rest hlog

theorem answered_append {strategies : List S} {log added : List (LogEntry S W)}
    (hanswered : Answered strategies log)
    (hadded : ∀ entry ∈ added, ∀ reason, entry ≠ .published ⟨.completed, reason⟩) :
    Answered strategies (log ++ added) := by
  induction added generalizing log with
  | nil =>
      rw [List.append_nil]
      exact hanswered
  | cons entry rest ih =>
      rw [List.append_cons]
      refine ih (answered_snoc hanswered fun reason hentry => ?_) fun other hother =>
        hadded other (List.mem_cons_of_mem _ hother)
      exact absurd hentry (hadded entry List.mem_cons_self reason)

theorem LogEntry.IsQuiet.not_completed {entry : LogEntry S W} (hquiet : entry.IsQuiet)
    (reason : DetachReason) : entry ≠ .published ⟨.completed, reason⟩ := by
  rintro rfl
  exact hquiet

/-- Quiet entries announce and complete nothing; they can only add to a round. -/
theorem round_quiet {log added : List (LogEntry S W)} (hquiet : ∀ entry ∈ added, entry.IsQuiet) :
    (round log = none → round (log ++ added) = none) ∧
      ∀ released, round log = some released →
        ∃ more, round (log ++ added) = some more ∧ released ⊆ more := by
  induction added generalizing log with
  | nil =>
      rw [List.append_nil]
      exact ⟨id, fun released hround => ⟨released, hround, List.Subset.refl _⟩⟩
  | cons entry rest ih =>
      obtain ⟨hnone, hsome⟩ := @ih (log ++ [entry]) fun other hother =>
        hquiet other (List.mem_cons_of_mem _ hother)
      rw [List.append_cons]
      have hentry := hquiet entry List.mem_cons_self
      refine ⟨fun hround => hnone ?_, fun released hround => ?_⟩
      · rw [round_snoc, hround]
        cases entry <;> first | rfl | exact hentry.elim
      · have hgrown : ∃ more, round (log ++ [entry]) = some more ∧ released ⊆ more := by
          rw [round_snoc, hround]
          cases entry with
          | invalidated strategy result =>
              rw [roundAfter]
              split_ifs
              · exact ⟨released, rfl, List.Subset.refl _⟩
              · exact ⟨_, rfl, List.subset_cons_self _ _⟩
          | published => exact hentry.elim
          | refreshScheduled => exact hentry.elim
          | _ => exact ⟨released, rfl, List.Subset.refl _⟩
        obtain ⟨more, hmore, hsubset⟩ := hgrown
        obtain ⟨most, hmost, hsubset'⟩ := hsome more hmore
        exact ⟨most, hmost, List.Subset.trans hsubset hsubset'⟩

/-- What is owed was owed before, or has been received meanwhile. -/
theorem owed_quiet {log added : List (LogEntry S W)} (hquiet : ∀ entry ∈ added, entry.IsQuiet)
    (howed : owed (log ++ added) = true) : owed log = true ∨ .received true ∈ added := by
  induction added generalizing log with
  | nil =>
      rw [List.append_nil] at howed
      exact Or.inl howed
  | cons entry rest ih =>
      rw [List.append_cons] at howed
      have hentry := hquiet entry List.mem_cons_self
      rcases ih (fun other hother => hquiet other (List.mem_cons_of_mem _ hother)) howed with
        howed | hreceived
      · rw [owed_snoc] at howed
        cases entry with
        | received holding =>
            cases holding with
            | false => exact Or.inl howed
            | true => exact Or.inr List.mem_cons_self
        | published => exact hentry.elim
        | refreshScheduled => exact hentry.elim
        | _ => exact Or.inl howed
      · exact Or.inr (List.mem_cons_of_mem _ hreceived)

/-! ## The invariant -/

/-- Some event of this type waits. -/
def Queued (c : TaskbarLayoutCoordinator σ S W) (type : EventType) : Prop :=
  ∃ event ∈ c.events, event.type = type

/-- The timer and the events of a detachment exclude each other. -/
structure Timed (c : TaskbarLayoutCoordinator σ S W) : Prop where
  armed : c.asyncTimer.isSome → c.state = .detaching ∧ ¬c.Queued .detachCompleted
  due : c.Queued .detachDue → c.state = .detaching ∧ c.events.length = 1 ∧ c.asyncTimer = none
  blocked : c.Queued .detachBlocked → ¬c.Queued .detachCompleted

/-- A round that is announced still has, or has invalidated, every strategy. -/
structure Rounds (c : TaskbarLayoutCoordinator σ S W) : Prop where
  announced : ∀ released, round c.log = some released → ∃ context ∈ c.detaching,
    context.cause = .hostInvalidated ∧
      ∀ strategy ∈ c.strategies, strategy ∈ context.strategies ∨ strategy ∈ released
  silent : round c.log = none → ∀ context ∈ c.detaching, context.cause = .userRequested
  emptied : c.state = .recreatingAfterDetach ∨ c.Queued .detachCompleted →
    ∀ context ∈ c.detaching, context.strategies = []
  unpaid : owed c.log = true → c.state ≠ .detached ∧
    (c.Queued .hostInvalidated ∨ ∃ context ∈ c.detaching, context.cause = .hostInvalidated)
  answered : Answered c.strategies c.log

variable {calls : TaskbarShell σ S W} {c : TaskbarLayoutCoordinator σ S W} {event : Event W}
  {events : List (Event W)}

theorem queued_next (hevents : c.events = event :: events) {type : EventType}
    (hqueued : Queued ({ c with events := events } : TaskbarLayoutCoordinator σ S W) type) :
    c.Queued type := by
  obtain ⟨other, hother, htype⟩ := hqueued
  exact ⟨other, hevents ▸ List.mem_cons_of_mem _ hother, htype⟩

theorem queued_head (hevents : c.events = event :: events) : c.Queued event.type :=
  ⟨event, hevents ▸ List.mem_cons_self, rfl⟩

theorem queued_rest (hevents : c.events = event :: events) {type : EventType}
    (hqueued : c.Queued type) (hother : event.type ≠ type) :
    Queued ({ c with events := events } : TaskbarLayoutCoordinator σ S W) type := by
  obtain ⟨queued, hmem, htype⟩ := hqueued
  rw [hevents, List.mem_cons] at hmem
  refine ⟨queued, hmem.resolve_left ?_, htype⟩
  rintro rfl
  exact hother htype

/-- A timer that has fired is alone in the queue. -/
theorem Timed.not_due (htimed : c.Timed) (hevents : c.events = event :: events) :
    ¬Queued ({ c with events := events } : TaskbarLayoutCoordinator σ S W) .detachDue := by
  intro hqueued
  have hlength := (htimed.due (queued_next hevents hqueued)).2.1
  obtain ⟨other, hother, -⟩ := hqueued
  rw [hevents, List.length_cons] at hlength
  have hempty : events = [] := List.eq_nil_of_length_eq_zero (by omega)
  change other ∈ events at hother
  rw [hempty] at hother
  cases hother

/-- What an operation adds to the queue. -/
theorem Frame.queued {first between : TaskbarLayoutCoordinator σ S W}
    (hframe : Frame calls first between) {type : EventType} (hresult : type.isArrival = false)
    (hqueued : between.Queued type) : first.Queued type := by
  obtain ⟨raised, hevents, hraised⟩ := hframe.events
  obtain ⟨event, hevent, rfl⟩ := hqueued
  rw [hevents] at hevent
  rcases List.mem_append.1 hevent with hevent | hevent
  · exact ⟨event, hevent, rfl⟩
  · rw [hraised event hevent] at hresult
    cases hresult

theorem Frame.queued_of {first between : TaskbarLayoutCoordinator σ S W}
    (hframe : Frame calls first between) {type : EventType} (hqueued : first.Queued type) :
    between.Queued type := by
  obtain ⟨raised, hevents, -⟩ := hframe.events
  obtain ⟨event, hevent, htype⟩ := hqueued
  exact ⟨event, hevents ▸ List.mem_append_left _ hevent, htype⟩

/-- While no timer runs, none fires. -/
theorem Frame.not_due {first between : TaskbarLayoutCoordinator σ S W}
    (hframe : Frame calls first between) (hunarmed : first.asyncTimer = none)
    (hdue : ¬first.Queued .detachDue) :
    between.asyncTimer = none ∧ ¬between.Queued .detachDue := by
  obtain ⟨htimer, hevents⟩ := hframe.unarmed hunarmed
  refine ⟨htimer, ?_⟩
  rintro ⟨event, hevent, htype⟩
  exact hdue ⟨event, hevents event hevent htype, htype⟩

theorem queued_post {between : TaskbarLayoutCoordinator σ S W} {posted type : EventType}
    {windowDestroyed : Bool} (hqueued : (between.post posted windowDestroyed).Queued type) :
    between.Queued type ∨ posted = type := by
  obtain ⟨event, hevent, htype⟩ := hqueued
  rcases List.mem_append.1 hevent with hevent | hevent
  · exact Or.inl ⟨event, hevent, htype⟩
  · rw [List.mem_singleton.1 hevent] at htype
    exact Or.inr htype

theorem queued_post_of {between : TaskbarLayoutCoordinator σ S W} {type : EventType}
    (hqueued : between.Queued type) (posted : EventType) (windowDestroyed : Bool) :
    (between.post posted windowDestroyed).Queued type := by
  obtain ⟨event, hevent, htype⟩ := hqueued
  exact ⟨event, List.mem_append_left _ hevent, htype⟩

/-- What an operation owes is still to be dealt with. -/
theorem Frame.owed {first between : TaskbarLayoutCoordinator σ S W}
    (hframe : Frame calls first between)
    (howed : TaskbarLayoutCoordinator.owed between.log = true) :
    TaskbarLayoutCoordinator.owed first.log = true ∨ between.Queued .hostInvalidated := by
  obtain ⟨added, hlog, hquiet, hheard⟩ := hframe.log
  rw [hlog] at howed
  refine (owed_quiet hquiet howed).imp_right fun hreceived => ?_
  obtain ⟨event, hevent, htype⟩ := List.mem_map.1 (hheard true hreceived)
  exact ⟨event, hevent, htype⟩

theorem Frame.round {first between : TaskbarLayoutCoordinator σ S W}
    (hframe : Frame calls first between) :
    (TaskbarLayoutCoordinator.round first.log = none →
        TaskbarLayoutCoordinator.round between.log = none) ∧
      ∀ released, TaskbarLayoutCoordinator.round first.log = some released →
        ∃ more, TaskbarLayoutCoordinator.round between.log = some more ∧ released ⊆ more := by
  obtain ⟨added, hlog, hquiet, -⟩ := hframe.log
  rw [hlog]
  exact round_quiet hquiet

theorem Frame.answered {first between : TaskbarLayoutCoordinator σ S W}
    (hframe : Frame calls first between) (hanswered : Answered first.strategies first.log) :
    Answered between.strategies between.log := by
  obtain ⟨added, hlog, hquiet, -⟩ := hframe.log
  rw [hlog, hframe.strategies]
  exact answered_append hanswered fun entry hentry => (hquiet entry hentry).not_completed

/-- While nothing is detached, no timer runs. -/
theorem Timed.unarmed (htimed : c.Timed) (hstate : c.state ≠ .detaching) :
    c.asyncTimer = none :=
  Option.not_isSome_iff_eq_none.1 fun harmed => hstate (htimed.armed harmed).1

theorem Timed.of_unarmed {after : TaskbarLayoutCoordinator σ S W} (hunarmed : after.asyncTimer = none)
    (hdue : ¬after.Queued .detachDue) (hblocked : after.Queued .detachBlocked →
      ¬after.Queued .detachCompleted) : after.Timed := by
  refine ⟨fun harmed => ?_, fun hqueued => absurd hqueued hdue, hblocked⟩
  rw [hunarmed] at harmed
  cases harmed

theorem round_notices {log : List (LogEntry S W)} {notices : List DetachEvent}
    (hblocked : ∀ notice ∈ notices, notice.phase = .blocked) :
    round (log ++ notices.map .published) = round log ∧
      owed (log ++ notices.map .published) = owed log := by
  induction notices generalizing log with
  | nil =>
      rw [List.map_nil, List.append_nil]
      exact ⟨rfl, rfl⟩
  | cons notice rest ih =>
      have hfirst := hblocked notice List.mem_cons_self
      obtain ⟨hround, howed⟩ := @ih (log ++ [.published notice]) fun other hother =>
        hblocked other (List.mem_cons_of_mem _ hother)
      rw [List.map_cons, List.append_cons, hround, howed, round_snoc, owed_snoc]
      obtain ⟨phase, reason⟩ := notice
      simp only at hfirst
      subst hfirst
      cases reason <;> exact ⟨by cases round log <;> rfl, rfl⟩

/-- What is owed while nothing is detached waits behind the event that is processed. -/
theorem Rounds.queued_idle (hrounds : c.Rounds) (hidle : c.detaching = none)
    (howed : owed c.log = true) : c.Queued .hostInvalidated := by
  refine (hrounds.unpaid howed).2.resolve_right ?_
  rintro ⟨context, hcontext, -⟩
  rw [hidle] at hcontext
  cases hcontext

/-- While nothing is detached, no round is announced. -/
theorem Rounds.round_idle (hrounds : c.Rounds) (hidle : c.detaching = none) :
    round c.log = none := by
  cases hround : round c.log with
  | none => rfl
  | some released =>
      obtain ⟨context, hcontext, -⟩ := hrounds.announced released hround
      rw [hidle] at hcontext
      cases hcontext

/-- Without a detachment nothing is announced, and nothing is complete. -/
theorem Rounds.of_idle {after : TaskbarLayoutCoordinator σ S W} (hidle : after.detaching = none)
    (hround : round after.log = none)
    (howed : owed after.log = true → after.state ≠ .detached ∧ after.Queued .hostInvalidated)
    (hanswered : Answered after.strategies after.log) : after.Rounds := by
  refine ⟨fun released hsome => ?_, fun _ context hcontext => ?_, fun _ context hcontext => ?_,
    fun hdue => ⟨(howed hdue).1, Or.inl (howed hdue).2⟩, hanswered⟩
  · rw [hround] at hsome
    cases hsome
  · rw [hidle] at hcontext
    cases hcontext
  · rw [hidle] at hcontext
    cases hcontext

/-- An event that leaves the detachment and the log alone. -/
theorem Rounds.same (hrounds : c.Rounds) (hevents : c.events = event :: events)
    {after : TaskbarLayoutCoordinator σ S W} (hqueue : after.events = events)
    (hstate : after.state = c.state) (hdetaching : after.detaching = c.detaching)
    (hlog : after.log = c.log) (hstrategies : after.strategies = c.strategies)
    (hhost : event.type = .hostInvalidated →
      ∃ context ∈ c.detaching, context.cause = .hostInvalidated) : after.Rounds := by
  have hqueued : ∀ {type : EventType}, after.Queued type → c.Queued type := by
    rintro type ⟨other, hother, htype⟩
    exact queued_next hevents ⟨other, hqueue ▸ hother, htype⟩
  refine ⟨?_, ?_, ?_, fun howed => ?_, ?_⟩
  · rw [hlog, hdetaching, hstrategies]
    exact hrounds.announced
  · rw [hlog, hdetaching]
    exact hrounds.silent
  · rw [hstate, hdetaching]
    exact fun hdone => hrounds.emptied (hdone.imp_right hqueued)
  · rw [hlog] at howed
    rw [hstate, hdetaching]
    obtain ⟨hheld, hdue⟩ := hrounds.unpaid howed
    refine ⟨hheld, ?_⟩
    by_cases htype : event.type = .hostInvalidated
    · exact Or.inr (hhost htype)
    · refine hdue.imp_left fun hwaits => ?_
      obtain ⟨other, hother, htype⟩ := queued_rest hevents hwaits htype
      exact ⟨other, hqueue ▸ hother, htype⟩
  · rw [hlog, hstrategies]
    exact hrounds.answered

/-- When its last event is taken from the queue, what is owed is left to the detachment. -/
theorem Rounds.last (hrounds : c.Rounds) (hevents : c.events = [event])
    (hother : event.type ≠ .hostInvalidated) (howed : owed c.log = true) :
    ∃ context ∈ c.detaching, context.cause = .hostInvalidated := by
  refine (hrounds.unpaid howed).2.resolve_left ?_
  rintro ⟨queued, hqueued, htype⟩
  rw [hevents, List.mem_singleton] at hqueued
  exact hother (hqueued ▸ htype)

/-- No timer is late where the timer and the events of a detachment exclude each other. -/
theorem Timed.timely (htimed : c.Timed) : c.Timely .process := by
  rintro ⟨-, hdue, hcompleted⟩
  obtain ⟨completed, hmem, htype⟩ := List.any_eq_true.1 hcompleted
  cases hevents : c.events with
  | nil =>
      rw [hevents] at hmem
      cases hmem
  | cons event rest =>
      rw [hevents] at hdue
      have hfirst : event.type = .detachDue := of_decide_eq_true hdue
      have hlength := (htimed.due (hfirst ▸ queued_head hevents)).2.1
      rw [hevents, List.length_cons] at hlength
      obtain rfl : rest = [] := List.eq_nil_of_length_eq_zero (by omega)
      rw [hevents, List.mem_singleton] at hmem
      rw [hmem, hfirst] at htype
      exact absurd htype (by decide)

/-- An arrival that is no timer finds an empty queue. -/
theorem timed_of_arrival {after : TaskbarLayoutCoordinator σ S W} (htimed : c.Timed)
    (hqueue : after.events = [event]) (htimer : after.asyncTimer = c.asyncTimer)
    (hstate : after.state = c.state) (hother : event.type ≠ .detachDue)
    (hresult : event.type.isArrival = true) : after.Timed := by
  have honly : ∀ {type : EventType}, after.Queued type → event.type = type := by
    rintro type ⟨other, hmem, htype⟩
    rw [hqueue, List.mem_singleton] at hmem
    exact hmem ▸ htype
  refine ⟨fun harmed => ?_, fun hdue => absurd (honly hdue) hother, fun hblocked => ?_⟩
  · rw [htimer] at harmed
    refine ⟨hstate.trans (htimed.armed harmed).1, fun hcompleted => ?_⟩
    rw [honly hcompleted] at hresult
    cases hresult
  · rw [honly hblocked] at hresult
    cases hresult

/-! ## One event -/

/-- No host is invalidated after a release on request is complete and before it is told. -/
def Heeds (c : TaskbarLayoutCoordinator σ S W) : Move W → Prop
  | .process => c.events.head?.any (·.type = .hostInvalidated) →
      c.detaching.any (·.cause = .userRequested) →
      ¬c.events.any (·.type = .detachCompleted) ∧ c.state ≠ .recreatingAfterDetach
  | _ => True

instance (c : TaskbarLayoutCoordinator σ S W) : (move : Move W) → Decidable (c.Heeds move)
  | .process => inferInstanceAs (Decidable (_ → _))
  | .arrive _ | .refresh | .notify => inferInstanceAs (Decidable True)

theorem Heeds.spec (hheeds : c.Heeds .process) (hevents : c.events = event :: events)
    (htype : event.type = .hostInvalidated) {context : DetachingContext S W}
    (hcontext : c.detaching = some context) (hcause : context.cause = .userRequested) :
    ¬c.Queued .detachCompleted ∧ c.state ≠ .recreatingAfterDetach := by
  have hhead : c.events.head?.any (·.type = .hostInvalidated) = true := by
    rw [hevents]
    exact decide_eq_true htype
  have huser : c.detaching.any (·.cause = .userRequested) = true := by
    rw [hcontext]
    exact decide_eq_true hcause
  obtain ⟨hcompleted, hstate⟩ := hheeds hhead huser
  refine ⟨?_, hstate⟩
  rintro ⟨other, hother, htype⟩
  exact hcompleted (List.any_eq_true.2 ⟨other, hother, decide_eq_true htype⟩)

variable [DecidableEq S]

/-- A round goes on with every strategy: it is left in the context or has been invalidated. -/
theorem releaseStrategies_round (c : TaskbarLayoutCoordinator σ S W) (strategies : List S)
    (context : DetachingContext S W) (hcause : context.cause = .hostInvalidated)
    {released : List S} (hround : round c.log = some released) :
    ∃ more, round (releaseStrategies calls strategies context c).2.log = some more ∧
      released ⊆ more ∧ ∀ strategy ∈ strategies,
        strategy ∈ (releaseStrategies calls strategies context c).1.strategies ∨
          strategy ∈ more := by
  induction strategies generalizing c context released with
  | nil => exact ⟨released, hround, List.Subset.refl _, by rintro _ ⟨⟩⟩
  | cons strategy rest ih =>
      have hcall : Frame calls c (c.call (calls.invalidate strategy)).2 :=
        call_frame c _ (.invalidate strategy)
      obtain ⟨called, hcalled, hsubset⟩ := hcall.round.2 released hround
      have hreleased : round (c.release calls .hostInvalidated strategy).2.log =
          roundAfter (some called)
            (.invalidated strategy (c.release calls .hostInvalidated strategy).1) :=
        (round_snoc _ _).trans (by rw [hcalled]; rfl)
      rw [releaseStrategies, hcause]
      simp only
      split_ifs with hfailed
      · rw [roundAfter, if_pos hfailed] at hreleased
        obtain ⟨more, hmore, hsubset', hleft⟩ := ih _ context hcause hreleased
        refine ⟨more, hmore, List.Subset.trans hsubset hsubset', fun other hother => ?_⟩
        rcases List.mem_cons.1 hother with rfl | hother
        · exact Or.inl List.mem_cons_self
        · exact (hleft other hother).imp_left (List.mem_cons_of_mem _)
      · rw [roundAfter, if_neg hfailed] at hreleased
        obtain ⟨more, hmore, hsubset', hleft⟩ := ih _ (context.released strategy _) hcause hreleased
        refine ⟨more, hmore, fun other hother =>
          hsubset' (List.mem_cons_of_mem _ (hsubset hother)), fun other hother => ?_⟩
        rcases List.mem_cons.1 hother with rfl | hother
        · exact Or.inr (hsubset' List.mem_cons_self)
        · exact hleft other hother

variable [DecidableEq W]

theorem Coherent.idle (hcoherent : c.Coherent) (hstate : c.state ∉ detachingStates) :
    c.detaching = none ∧ ¬c.Queued .detachBlocked ∧ ¬c.Queued .detachCompleted := by
  have hnone : ∀ {type : EventType}, type.isArrival = false → Arrivals c.events →
      ¬c.Queued type := by
    rintro _ hresult hqueue ⟨event, hevent, rfl⟩
    rw [hqueue event hevent] at hresult
    cases hresult
  cases hcoherent with
  | detached _ hqueue _ _ _ hdetaching => exact ⟨hdetaching, hnone rfl hqueue, hnone rfl hqueue⟩
  | prepared _ hqueue _ hdetaching => exact ⟨hdetaching, hnone rfl hqueue, hnone rfl hqueue⟩
  | attached _ hqueue _ _ hdetaching => exact ⟨hdetaching, hnone rfl hqueue, hnone rfl hqueue⟩
  | operating _ _ hawaits hheld hdetaching =>
      have hwakes := Held.wakes hheld
      obtain ⟨front, last, hevents, hfront, htype⟩ := hawaits
      have hstill : ∀ {type : EventType}, type.wakes = true → type.isArrival = false →
          ¬c.Queued type := by
        rintro _ hwake hresult ⟨event, hevent, rfl⟩
        rw [hevents] at hevent
        rcases List.mem_append.1 hevent with hevent | hevent
        · rw [hfront event hevent] at hresult
          cases hresult
        · rw [List.mem_singleton.1 hevent, htype, hwakes] at hwake
          cases hwake
      exact ⟨hdetaching, hstill rfl rfl, hstill rfl rfl⟩
  | detaching hdetaching =>
      rw [hdetaching] at hstate
      exact absurd (by decide) hstate
  | recreating hrecreating =>
      rw [hrecreating] at hstate
      exact absurd (by decide) hstate

theorem Coherent.engaged (hcoherent : c.Coherent) (hstate : c.state ∈ detachingStates) :
    ∃ context, c.detaching = some context := by
  apply Option.isSome_iff_exists.1
  have hother : ∀ {state : State}, c.state = state → state ∉ detachingStates →
      c.detaching.isSome := by
    rintro _ rfl hnot
    exact absurd hstate hnot
  cases hcoherent with
  | detached hdetached => exact hother hdetached (by decide)
  | prepared hprepared => exact hother hprepared (by decide)
  | attached hattached => exact hother hattached (by decide)
  | operating hoperating =>
      simp only [operatingStates, List.mem_cons, List.not_mem_nil, or_false] at hoperating
      rcases hoperating with h | h | h | h | h | h | h <;> exact hother h (by decide)
  | detaching _ _ _ hcontext => exact hcontext
  | recreating _ _ _ hcontext => exact hcontext

/-- The completion of a detachment, or the window made anew for it, is the last event. -/
theorem Coherent.last (hcoherent : c.Coherent) (hevents : c.events = event :: events)
    (hlast : c.state = .detaching ∧ event.type = .detachCompleted ∨
      c.state = .recreatingAfterDetach ∧
        event.type ∈ [EventType.windowRecreated, .windowRecreationFailed]) : events = [] := by
  have hdetaching : c.state ∈ detachingStates := by
    rcases hlast with ⟨hstate, -⟩ | ⟨hstate, -⟩ <;> rw [hstate] <;> decide
  cases hcoherent with
  | detaching hstate hcompletion =>
      rcases hlast with ⟨-, hcompleted⟩ | ⟨hother, -⟩
      · exact (CompletionLast.next c hcompletion hevents).1 hcompleted
      · rw [hstate] at hother
        cases hother
  | recreating hstate _ hawaits =>
      rcases hlast with ⟨hother, -⟩ | ⟨-, htype⟩
      · rw [hstate] at hother
        cases hother
      · rcases Awaits.next c hawaits hevents with ⟨harrival, -⟩ | ⟨-, hempty⟩
        · simp only [List.mem_cons, List.not_mem_nil, or_false] at htype
          rcases htype with htype | htype <;> rw [htype] at harrival <;> cases harrival
        · exact hempty
  | detached hstate => rw [hstate] at hdetaching; exact absurd hdetaching (by decide)
  | prepared hstate => rw [hstate] at hdetaching; exact absurd hdetaching (by decide)
  | attached hstate => rw [hstate] at hdetaching; exact absurd hdetaching (by decide)
  | operating hstate =>
      simp only [operatingStates, List.mem_cons, List.not_mem_nil, or_false] at hstate
      rcases hstate with h | h | h | h | h | h | h <;> rw [h] at hdetaching <;>
        exact absurd hdetaching (by decide)

omit [DecidableEq S] [DecidableEq W] in
theorem timed_kept (htimed : c.Timed) (hevents : c.events = event :: events)
    {after : TaskbarLayoutCoordinator σ S W}
    (hkept : Kept ({ c with events := events } : TaskbarLayoutCoordinator σ S W) after)
    (hstate : after.state = c.state ∨
      c.state ∉ detachingStates ∧ after.state ∉ detachingStates ∧ events = []) : after.Timed := by
  have hdue := htimed.not_due hevents
  have hnext := fun {type : EventType} => @queued_next σ S W c event events hevents type
  have hqueued : ∀ {type : EventType}, after.Queued type →
      Queued ({ c with events := events } : TaskbarLayoutCoordinator σ S W) type := by
    rintro type ⟨other, hother, htype⟩
    exact ⟨other, hkept.events ▸ hother, htype⟩
  refine ⟨fun harmed => ?_, fun hfired => absurd (hqueued hfired) hdue, fun hblocked hcompleted =>
    htimed.blocked (hnext (hqueued hblocked)) (hnext (hqueued hcompleted))⟩
  obtain ⟨hdetaching, hcompleted⟩ := htimed.armed (hkept.asyncTimer ▸ harmed)
  refine ⟨?_, fun hqueued' => hcompleted (hnext (hqueued hqueued'))⟩
  rcases hstate with hsame | ⟨hidle, -⟩
  · exact hsame.trans hdetaching
  · exact absurd (by rw [hdetaching]; decide) hidle

theorem timed_operated (hcoherent : c.Coherent) (htimed : c.Timed)
    (hevents : c.events = event :: events)
    {first between : TaskbarLayoutCoordinator σ S W} {type : EventType}
    (hkept : Kept ({ c with events := events } : TaskbarLayoutCoordinator σ S W) first)
    (hframe : Frame calls first between) (hstate : c.state ∉ detachingStates)
    (htype : type.wakes = false) : (between.post type false).Timed := by
  have hdue := htimed.not_due hevents
  have hnext := fun {type : EventType} => @queued_next σ S W c event events hevents type
  have hunarmed := htimed.unarmed fun hdetaching =>
    hstate (by rw [hdetaching]; decide)
  obtain ⟨-, hblocked, -⟩ := Coherent.idle hcoherent hstate
  have hfirst : first.events = events := hkept.events
  have hqueued : ∀ {type : EventType}, first.Queued type → Queued
      ({ c with events := events } : TaskbarLayoutCoordinator σ S W) type := by
    rintro type ⟨other, hother, htype⟩
    exact ⟨other, hfirst ▸ hother, htype⟩
  obtain ⟨htimer, hfired⟩ := hframe.not_due (hkept.asyncTimer.trans hunarmed)
    fun hfired => hdue (hqueued hfired)
  refine Timed.of_unarmed htimer (fun hqueue => ?_) fun hqueue => ?_
  · rcases queued_post hqueue with hqueue | rfl
    · exact hfired hqueue
    · cases htype
  · rcases queued_post hqueue with hqueue | rfl
    · exact absurd (hnext (hqueued (hframe.queued rfl hqueue))) hblocked
    · cases htype

theorem timed_begun (hcoherent : c.Coherent) (htimed : c.Timed)
    (hevents : c.events = event :: events) (hstate : c.state ∉ detachingStates)
    {cause : DetachmentCause} {between : TaskbarLayoutCoordinator σ S W}
    {context : DetachingContext S W}
    (hbegun : Begun calls ({ c with events := events, state := .detaching } :
      TaskbarLayoutCoordinator σ S W) cause between context) :
    Timed ((({ between with preparedStrategy := none, detaching := some context } :
      TaskbarLayoutCoordinator σ S W).announce cause).post
        (if context.strategies.isEmpty then .detachCompleted else .detachBlocked)
        (context.disposition = .destroyed)) := by
  have hdue := htimed.not_due hevents
  have hnext := fun {type : EventType} => @queued_next σ S W c event events hevents type
  have hunarmed := htimed.unarmed fun hdetaching =>
    hstate (by rw [hdetaching]; decide)
  obtain ⟨-, hblocked, hcompleted⟩ := Coherent.idle hcoherent hstate
  obtain ⟨htimer, hfired⟩ := hbegun.frame.not_due hunarmed hdue
  rw [announce_eq]
  refine Timed.of_unarmed htimer (fun hqueue => ?_) fun hqueue hqueue' => ?_
  · rcases queued_post hqueue with hqueue | hposted
    · exact hfired hqueue
    · revert hposted
      split_ifs <;> rintro ⟨⟩
  · rcases queued_post hqueue with hqueue | hposted
    · exact hblocked (hnext (hbegun.frame.queued rfl hqueue))
    · rcases queued_post hqueue' with hqueue' | hposted'
      · exact hcompleted (hnext (hbegun.frame.queued rfl hqueue'))
      · rw [hposted] at hposted'
        cases hposted'

theorem timed_escalated (hcoherent : c.Coherent) (htimed : c.Timed)
    (hevents : c.events = event :: events) (hheeds : c.Heeds .process)
    (hstate : c.state = .detaching) (htype : event.type = .hostInvalidated) :
    ({ c with events := events } : TaskbarLayoutCoordinator σ S W).escalateDetaching.Timed := by
  have hdue := htimed.not_due hevents
  have hnext := fun {type : EventType} => @queued_next σ S W c event events hevents type
  have hsame : Timed ({ c with events := events } : TaskbarLayoutCoordinator σ S W) :=
    ⟨fun harmed => ⟨hstate, fun hqueue => (htimed.armed harmed).2 (hnext hqueue)⟩,
      fun hqueue => absurd hqueue hdue,
      fun hqueue hqueue' => htimed.blocked (hnext hqueue) (hnext hqueue')⟩
  obtain ⟨context, hcontext⟩ := Coherent.engaged hcoherent (hstate ▸ by decide)
  have hescalate := @escalateDetaching_cases σ S W _ { c with events := events } context hcontext
  rcases hescalate with ⟨-, hafter⟩ | ⟨hcause, strategies, -, hafter⟩
  · rw [hafter]
    exact hsame
  · have hcompleted := (hheeds.spec hevents htype hcontext hcause).1
    rw [hafter]
    exact ⟨fun _ => ⟨hstate, fun hqueue => hcompleted (hnext hqueue)⟩, fun hqueue =>
      absurd hqueue hdue, fun hqueue hqueue' => htimed.blocked (hnext hqueue) (hnext hqueue')⟩

theorem timed_advanced (hcoherent : c.Coherent) (htimed : c.Timed)
    (hevents : c.events = event :: events) (hstate : c.state = .detaching)
    (htype : event.type = .detachDue) :
    (({ c with events := events } : TaskbarLayoutCoordinator σ S W).advanceDetaching calls).Timed := by
  have hdue := htimed.not_due hevents
  obtain ⟨-, hlength, hunarmed⟩ := htimed.due (htype ▸ queued_head hevents)
  rw [hevents, List.length_cons] at hlength
  have hempty : events = [] := List.eq_nil_of_length_eq_zero (by omega)
  have hnone : ∀ {type : EventType}, ¬Queued
      ({ c with events := events } : TaskbarLayoutCoordinator σ S W) type := by
    rintro type ⟨other, hother, -⟩
    change other ∈ events at hother
    rw [hempty] at hother
    cases hother
  obtain ⟨context, hcontext⟩ := Coherent.engaged hcoherent (hstate ▸ by decide)
  obtain ⟨left, released, hreleases, hcases⟩ := @advanceDetaching_cases σ S W _
    { c with events := events } calls context hcontext
  have hframe : Frame calls ({ c with events := events } : TaskbarLayoutCoordinator σ S W)
      released := by
    have hundisturbed := @releaseStrategies_undisturbed σ S W _ { c with events := events }
      calls _ context.strategies { context with attempts := context.attempts + 1 }
    rw [hreleases] at hundisturbed
    exact hundisturbed.frame
  obtain ⟨htimer, hfired⟩ := hframe.not_due hunarmed hdue
  rcases hcases with ⟨-, hafter⟩ | ⟨notices, interval, -, hafter⟩
  · rw [hafter]
    refine Timed.of_unarmed htimer (fun hqueue => ?_) fun hqueue => ?_
    · exact (queued_post hqueue).elim hfired (by rintro ⟨⟩)
    · exact (queued_post hqueue).elim
        (fun hqueue => absurd (hframe.queued rfl hqueue) hnone) (by rintro ⟨⟩)
  · rw [hafter]
    refine ⟨fun _ => ⟨hframe.state.trans hstate, fun hqueue => ?_⟩, fun hqueue => ?_,
      fun hqueue => ?_⟩
    · exact hnone (hframe.queued rfl hqueue)
    · exact absurd hqueue hfired
    · exact absurd (hframe.queued rfl hqueue) hnone

omit [DecidableEq S] [DecidableEq W] in
theorem timed_recreated (htimed : c.Timed) (hevents : c.events = event :: events)
    (htype : event.type = .detachCompleted)
    {between : TaskbarLayoutCoordinator σ S W} {type : EventType}
    (hframe : Frame calls ({ c with events := events, state := .recreatingAfterDetach } :
      TaskbarLayoutCoordinator σ S W) between)
    (hposted : type ∈ [EventType.windowRecreated, .windowRecreationFailed]) :
    (between.post type false).Timed := by
  have hdue := htimed.not_due hevents
  have hnext := fun {type : EventType} => @queued_next σ S W c event events hevents type
  have hunarmed : c.asyncTimer = none := Option.not_isSome_iff_eq_none.1 fun harmed =>
    (htimed.armed harmed).2 (htype ▸ queued_head hevents)
  obtain ⟨htimer, hfired⟩ := hframe.not_due hunarmed hdue
  refine Timed.of_unarmed htimer (fun hqueue => ?_) fun hqueue => ?_
  · rcases queued_post hqueue with hqueue | rfl
    · exact hfired hqueue
    · simp at hposted
  · rcases queued_post hqueue with hqueue | rfl
    · exact absurd (htype ▸ queued_head hevents)
        (htimed.blocked (hnext (hframe.queued rfl hqueue)))
    · simp at hposted

theorem timed_finished (hcoherent : c.Coherent) (htimed : c.Timed)
    (hevents : c.events = event :: events)
    (hstate : c.state = .detaching ∧ event.type = .detachCompleted ∨
      c.state = .recreatingAfterDetach ∧
        event.type ∈ [EventType.windowRecreated, .windowRecreationFailed]) :
    ({ c with events := events, state := .detached } :
      TaskbarLayoutCoordinator σ S W).finishDetaching.Timed := by
  have hdue := htimed.not_due hevents
  have hempty := Coherent.last hcoherent hevents hstate
  have hunarmed : c.asyncTimer = none := by
    rcases hstate with ⟨-, htype⟩ | ⟨hstate, -⟩
    · exact Option.not_isSome_iff_eq_none.1 fun harmed =>
        (htimed.armed harmed).2 (htype ▸ queued_head hevents)
    · refine htimed.unarmed fun hdetaching => ?_
      rw [hdetaching] at hstate
      cases hstate
  refine Timed.of_unarmed hunarmed hdue ?_
  rintro ⟨other, hother, -⟩
  change other ∈ events at hother
  rw [hempty] at hother
  cases hother

omit [DecidableEq W] in
theorem timed_refreshed (htimed : c.Timed) (hevents : c.events = event :: events)
    (hstate : c.state = .detached) :
    ({ c with events := events } : TaskbarLayoutCoordinator σ S W).scheduleDetachedHostRefresh.Timed := by
  have hdue := htimed.not_due hevents
  have hnext := fun {type : EventType} => @queued_next σ S W c event events hevents type
  have hunarmed : c.asyncTimer = none := htimed.unarmed fun hdetaching => by
    rw [hdetaching] at hstate
    cases hstate
  rw [scheduleDetachedHostRefresh]
  split_ifs
  · exact Timed.of_unarmed hunarmed hdue fun hqueue hqueue' =>
      htimed.blocked (hnext hqueue) (hnext hqueue')
  · exact Timed.of_unarmed hunarmed hdue fun hqueue hqueue' =>
      htimed.blocked (hnext hqueue) (hnext hqueue')

/-- The timer of a detachment runs only while nothing else goes on with it. -/
theorem timed_process (hcoherent : c.Coherent) (htimed : c.Timed)
    (hevents : c.events = event :: events) (hheeds : c.Heeds .process)
    {after : TaskbarLayoutCoordinator σ S W}
    (hhandled : Handled calls ({ c with events := events } : TaskbarLayoutCoordinator σ S W) event
      after) : after.Timed := by
  cases hhandled with
  | kept hkept hstate => exact timed_kept htimed hevents hkept hstate
  | operated hkept hframe hstate _ _ htype =>
      exact timed_operated hcoherent htimed hevents hkept hframe hstate htype
  | begun hstate hbegun => exact timed_begun hcoherent htimed hevents hstate hbegun
  | escalated hstate htype => exact timed_escalated hcoherent htimed hevents hheeds hstate htype
  | scheduled hstate htype =>
      have hdue := htimed.not_due hevents
      have hnext := fun {type : EventType} => @queued_next σ S W c event events hevents type
      have hblocked := htimed.blocked (htype ▸ queued_head hevents)
      refine ⟨fun _ => ⟨hstate, fun hqueue => hblocked (hnext hqueue)⟩, fun hqueue =>
        absurd hqueue hdue, fun hqueue hqueue' => htimed.blocked (hnext hqueue) (hnext hqueue')⟩
  | advanced hstate htype => exact timed_advanced hcoherent htimed hevents hstate htype
  | recreated hstate htype hframe hposted =>
      exact timed_recreated htimed hevents htype hframe hposted
  | finished hstate => exact timed_finished (c := c) hcoherent htimed hevents hstate
  | refreshed hstate => exact timed_refreshed htimed hevents hstate

/-! ## Rounds -/

/-- One attempt of a round leaves no strategy out. -/
theorem advance_round {c released : TaskbarLayoutCoordinator σ S W} (hrounds : c.Rounds)
    {context left : DetachingContext S W} (hcontext : c.detaching = some context)
    (hreleases : releaseStrategies calls context.strategies
      { context with attempts := context.attempts + 1 }
        ({ c with events := [] } : TaskbarLayoutCoordinator σ S W) = (left, released)) :
    Frame calls ({ c with events := [] } : TaskbarLayoutCoordinator σ S W) released ∧
      left.cause = context.cause ∧
      ∀ more, round released.log = some more → left.cause = .hostInvalidated ∧
        ∀ strategy ∈ released.strategies, strategy ∈ left.strategies ∨ strategy ∈ more := by
  have hundisturbed := @releaseStrategies_undisturbed σ S W _ { c with events := [] } calls _
    context.strategies { context with attempts := context.attempts + 1 }
  have hcause := (@releaseStrategies_context σ S W _ { c with events := [] } calls
    context.strategies { context with attempts := context.attempts + 1 }).1
  have hround := fun hhost released hbefore => @releaseStrategies_round σ S W calls _
    { c with events := [] } context.strategies { context with attempts := context.attempts + 1 }
    hhost released hbefore
  rw [hreleases] at hundisturbed hcause hround
  have hframe := hundisturbed.frame
  refine ⟨hframe, hcause, fun more hmore => ?_⟩
  cases hbefore : round c.log with
  | none =>
      rw [hframe.round.1 hbefore] at hmore
      cases hmore
  | some earlier =>
      obtain ⟨other, hother, hhost, hleft⟩ := hrounds.announced earlier hbefore
      obtain rfl : context = other := Option.some_inj.1 (hcontext.symm.trans hother)
      obtain ⟨most, hmost, hsubset, hkept⟩ := hround hhost earlier hbefore
      obtain rfl : most = more := Option.some_inj.1 (hmost.symm.trans hmore)
      refine ⟨hcause.trans hhost, fun strategy hmem => ?_⟩
      rw [hframe.strategies] at hmem
      rcases hleft strategy hmem with hwaits | hdone
      · exact hkept strategy hwaits
      · exact Or.inr (hsubset hdone)

/-- An event for which nothing is called. -/
theorem rounds_kept (hcoherent : c.Coherent) (hrounds : c.Rounds)
    (hevents : c.events = event :: events) (hheeds : c.Heeds .process)
    {after : TaskbarLayoutCoordinator σ S W}
    (hkept : Kept ({ c with events := events } : TaskbarLayoutCoordinator σ S W) after)
    (hstate : after.state = c.state ∨
      c.state ∉ detachingStates ∧ after.state ∉ detachingStates ∧ events = [])
    (hhost : event.type = .hostInvalidated → c.state = .recreatingAfterDetach) : after.Rounds := by
  rcases hstate with hsame | ⟨hidle, -, hempty⟩
  · refine hrounds.same hevents hkept.events hsame hkept.detaching hkept.log hkept.strategies
      fun htype => ?_
    have hrecreating : c.state = .recreatingAfterDetach := hhost htype
    obtain ⟨context, hcontext⟩ := Coherent.engaged hcoherent (hrecreating ▸ by decide)
    refine ⟨context, hcontext, ?_⟩
    cases hcause : context.cause with
    | hostInvalidated => rfl
    | userRequested =>
        exact absurd hrecreating (hheeds.spec hevents htype hcontext hcause).2
  · have hidle' : c.detaching = none := (Coherent.idle hcoherent hidle).1
    have hlog : after.log = c.log := hkept.log
    rw [hempty] at hevents
    refine Rounds.of_idle (hkept.detaching.trans hidle') (hlog ▸ hrounds.round_idle hidle')
      (fun howed => ?_) ?_
    · have hother : event.type ≠ .hostInvalidated := fun htype => by
        have hrecreating : c.state = .recreatingAfterDetach := hhost htype
        exact hidle (by rw [hrecreating]; decide)
      obtain ⟨context, hcontext, -⟩ := hrounds.last hevents hother (hlog ▸ howed)
      rw [hidle'] at hcontext
      cases hcontext
    · rw [hlog, hkept.strategies]
      exact hrounds.answered

/-- An operation that is not a detachment. -/
theorem rounds_operated (hcoherent : c.Coherent) (hrounds : c.Rounds)
    (hevents : c.events = event :: events)
    {first between : TaskbarLayoutCoordinator σ S W} (type : EventType)
    (hkept : Kept ({ c with events := events } : TaskbarLayoutCoordinator σ S W) first)
    (hframe : Frame calls first between) (hstate : c.state ∉ detachingStates)
    (hfirst : first.state ∈ operatingStates) (hhost : event.type ≠ .hostInvalidated) :
    (between.post type false).Rounds := by
  have hrest := fun {type : EventType} => @queued_rest σ S W c event events hevents type
  obtain ⟨hidle, -, -⟩ := Coherent.idle hcoherent hstate
  have hlog : first.log = c.log := hkept.log
  have hstrategies : first.strategies = c.strategies := hkept.strategies
  have hfirst' : first.state ≠ .detached := by
    intro hdetached
    rw [hdetached] at hfirst
    revert hfirst
    decide
  refine Rounds.of_idle (hframe.detaching.trans (hkept.detaching.trans hidle))
    (hframe.round.1 (hlog ▸ hrounds.round_idle hidle)) (fun howed => ⟨?_, ?_⟩) ?_
  · exact hframe.state ▸ hfirst'
  · apply queued_post_of
    rcases hframe.owed howed with howed | hqueued
    · obtain ⟨other, hother, hqueued⟩ :=
        hrest (hrounds.queued_idle hidle (hlog ▸ howed)) hhost
      exact hframe.queued_of ⟨other, hkept.events.symm ▸ hother, hqueued⟩
    · exact hqueued
  · exact hframe.answered (by rw [hlog, hstrategies]; exact hrounds.answered)

/-- A detachment that begins, with its round when a host was invalidated. -/
theorem rounds_begun (hcoherent : c.Coherent) (hrounds : c.Rounds)
    (hevents : c.events = event :: events) (hstate : c.state ∉ detachingStates)
    {cause : DetachmentCause} {between : TaskbarLayoutCoordinator σ S W}
    {context : DetachingContext S W}
    (hbegun : Begun calls ({ c with events := events, state := .detaching } :
      TaskbarLayoutCoordinator σ S W) cause between context)
    (hhost : event.type = .hostInvalidated → cause = .hostInvalidated) :
    Rounds ((({ between with preparedStrategy := none, detaching := some context } :
      TaskbarLayoutCoordinator σ S W).announce cause).post
        (if context.strategies.isEmpty then .detachCompleted else .detachBlocked)
        (context.disposition = .destroyed)) := by
  have hnext := fun {type : EventType} => @queued_next σ S W c event events hevents type
  have hrest := fun {type : EventType} => @queued_rest σ S W c event events hevents type
  obtain ⟨hidle, hblocked, hcompleted⟩ := Coherent.idle hcoherent hstate
  have hframe := hbegun.frame
  have hnone : round between.log = none := hframe.round.1 (hrounds.round_idle hidle)
  have hcompleted' : ¬between.Queued .detachCompleted := fun hqueue =>
    hcompleted (hnext (hframe.queued rfl hqueue))
  have hanswered : Answered between.strategies between.log := hframe.answered hrounds.answered
  have hstate' : between.state = .detaching := hframe.state
  set posted : EventType :=
    if context.strategies.isEmpty then .detachCompleted else .detachBlocked with hposted
  set after := (({ between with preparedStrategy := none, detaching := some context } :
    TaskbarLayoutCoordinator σ S W).announce cause).post posted
      (context.disposition = .destroyed) with hafter
  rw [announce_eq] at hafter
  have hemptied : after.state = .recreatingAfterDetach ∨ after.Queued .detachCompleted →
      ∀ other ∈ after.detaching, other.strategies = [] := by
    rintro (hrecreating | hqueue) other hother
    · rw [hafter] at hrecreating
      exact absurd (hstate'.symm.trans hrecreating) (by rintro ⟨⟩)
    · rw [hafter] at hqueue hother
      obtain rfl : context = other := Option.some_inj.1 hother
      rcases queued_post hqueue with hqueue | hcompletes
      · exact absurd hqueue hcompleted'
      · by_contra hleft
        rw [hposted, if_neg fun hempty => hleft (List.isEmpty_iff.1 hempty)] at hcompletes
        cases hcompletes
  have hunpaid : after.state ≠ .detached := by
    rw [hafter]
    change between.state ≠ _
    rw [hstate']
    rintro ⟨⟩
  cases cause with
  | hostInvalidated =>
      have hround : round after.log = some [] := by
        rw [hafter]
        exact round_snoc _ _
      refine ⟨fun released hsome => ⟨context, by rw [hafter]; rfl, hbegun.cause_eq, ?_⟩,
        fun hnone => ?_, hemptied, fun _ => ⟨hunpaid, Or.inr
          ⟨context, by rw [hafter]; rfl, hbegun.cause_eq⟩⟩, ?_⟩
      · intro strategy hmem
        rw [hafter] at hmem
        exact Or.inl (hbegun.strategies rfl ▸ hmem)
      · rw [hround] at hnone
        cases hnone
      · rw [hafter]
        exact answered_snoc hanswered (by rintro _ ⟨⟩)
  | userRequested =>
      have hlog : after.log = between.log := by
        rw [hafter]
        exact List.append_nil _
      refine ⟨fun released hsome => ?_, fun _ other hother => ?_, hemptied,
        fun howed => ⟨hunpaid, Or.inl ?_⟩, ?_⟩
      · rw [hlog, hnone] at hsome
        cases hsome
      · rw [hafter] at hother
        obtain rfl : context = other := Option.some_inj.1 hother
        exact hbegun.cause_eq
      · rw [hlog] at howed
        rw [hafter]
        apply queued_post_of
        rcases hframe.owed howed with howed | hqueued
        · have hqueued := hrest (hrounds.queued_idle hidle howed) fun htype => by
            cases hhost htype
          obtain ⟨raised, hraised, -⟩ := hframe.events
          obtain ⟨other, hother, htype⟩ := hqueued
          exact ⟨other, hraised ▸ List.mem_append_left _ hother, htype⟩
        · exact hqueued
      · rw [hlog, hafter]
        exact hanswered

/-- A release that an invalidated host takes over. -/
theorem rounds_escalated (hcoherent : c.Coherent) (hrounds : c.Rounds)
    (hevents : c.events = event :: events) (hheeds : c.Heeds .process)
    (hstate : c.state = .detaching) (htype : event.type = .hostInvalidated) :
    ({ c with events := events } : TaskbarLayoutCoordinator σ S W).escalateDetaching.Rounds := by
  have hnext := fun {type : EventType} => @queued_next σ S W c event events hevents type
  obtain ⟨context, hcontext⟩ := Coherent.engaged hcoherent (hstate ▸ by decide)
  have hescalate := @escalateDetaching_cases σ S W _ { c with events := events } context hcontext
  rcases hescalate with ⟨hcause, hafter⟩ | ⟨hcause, strategies, hall, hafter⟩
  · rw [hafter]
    exact hrounds.same hevents rfl rfl rfl rfl rfl fun _ => ⟨context, hcontext, hcause⟩
  · have hcompleted := (hheeds.spec hevents htype hcontext hcause).1
    rw [hafter]
    have hround : round (c.log ++ [.published ⟨.started, .hostInvalidated⟩]) = some [] :=
      round_snoc _ _
    refine ⟨fun released _ => ⟨_, rfl, rfl, fun strategy hmem => Or.inl (hall strategy hmem)⟩,
      fun hnone => ?_, ?_, fun _ => ⟨?_, Or.inr ⟨_, rfl, rfl⟩⟩,
      answered_snoc hrounds.answered (by rintro _ ⟨⟩)⟩
    · change round (c.log ++ [.published ⟨.started, .hostInvalidated⟩]) = none at hnone
      rw [hround] at hnone
      cases hnone
    · rintro (hrecreating | hqueue) other -
      · exact absurd (hstate.symm.trans hrecreating) (by rintro ⟨⟩)
      · exact absurd (hnext hqueue) hcompleted
    · change c.state ≠ _
      intro hdetached
      exact absurd (hstate.symm.trans hdetached) (by rintro ⟨⟩)

/-- One more attempt of a detachment. -/
theorem rounds_advanced (hcoherent : c.Coherent) (htimed : c.Timed) (hrounds : c.Rounds)
    (hevents : c.events = event :: events) (hstate : c.state = .detaching)
    (htype : event.type = .detachDue) :
    (({ c with events := events } : TaskbarLayoutCoordinator σ S W).advanceDetaching calls).Rounds := by
  have hlength := (htimed.due (htype ▸ queued_head hevents)).2.1
  rw [hevents, List.length_cons] at hlength
  obtain rfl : events = [] := List.eq_nil_of_length_eq_zero (by omega)
  obtain ⟨context, hcontext⟩ := Coherent.engaged hcoherent (hstate ▸ by decide)
  obtain ⟨left, released, hreleases, hcases⟩ := @advanceDetaching_cases σ S W _
    { c with events := [] } calls context hcontext
  obtain ⟨hframe, hcause, hround⟩ := advance_round hrounds hcontext hreleases
  have hreleased : released.state = .detaching := hframe.state.trans hstate
  have hanswered : Answered released.strategies released.log := hframe.answered hrounds.answered
  have hsilent : round released.log = none → left.cause = .userRequested := by
    intro hnone
    rw [hcause]
    refine hrounds.silent ?_ context hcontext
    cases hbefore : round c.log with
    | none => rfl
    | some earlier =>
        obtain ⟨more, hmore, -⟩ := hframe.round.2 earlier hbefore
        rw [hmore] at hnone
        cases hnone
  have hunpaid : owed released.log = true →
      released.Queued .hostInvalidated ∨ left.cause = .hostInvalidated := by
    intro howed
    rcases hframe.owed howed with howed | hqueued
    · obtain ⟨other, hother, hhost⟩ := hrounds.last hevents (by rw [htype]; rintro ⟨⟩) howed
      obtain rfl : context = other := Option.some_inj.1 (hcontext.symm.trans hother)
      exact Or.inr (hcause.trans hhost)
    · exact Or.inl hqueued
  rcases hcases with ⟨hempty, hafter⟩ | ⟨notices, interval, hblocked, hafter⟩
  · rw [hafter]
    refine ⟨fun more hmore => ⟨left, rfl, hround more hmore⟩,
      fun hnone other hother => ?_, fun _ other hother => ?_, fun howed => ⟨?_, ?_⟩, hanswered⟩
    · obtain rfl : left = other := Option.some_inj.1 hother
      exact hsilent hnone
    · obtain rfl : left = other := Option.some_inj.1 hother
      exact hempty
    · exact fun hdetached => absurd (hreleased.symm.trans hdetached) (by rintro ⟨⟩)
    · exact (hunpaid howed).imp (fun hqueued => queued_post_of hqueued _ _)
        fun hhost => ⟨left, rfl, hhost⟩
  · obtain ⟨hsame, hsame'⟩ := @round_notices S W released.log notices hblocked
    rw [hafter]
    refine ⟨fun more hmore => ⟨left, rfl, hround more (hsame.symm.trans hmore)⟩,
      fun hnone other hother => ?_, ?_, fun howed => ⟨?_, ?_⟩, ?_⟩
    · obtain rfl : left = other := Option.some_inj.1 hother
      exact hsilent (hsame.symm.trans hnone)
    · rintro (hrecreating | hqueue) other -
      · exact absurd (hreleased.symm.trans hrecreating) (by rintro ⟨⟩)
      · obtain ⟨other, hother, -⟩ := hframe.queued rfl hqueue
        cases hother
    · exact fun hdetached => absurd (hreleased.symm.trans hdetached) (by rintro ⟨⟩)
    · exact (hunpaid (hsame'.symm.trans howed)).imp_right fun hhost => ⟨left, rfl, hhost⟩
    · refine answered_append hanswered fun entry hentry reason => ?_
      obtain ⟨notice, hnotice, rfl⟩ := List.mem_map.1 hentry
      intro hcompleted
      injection hcompleted with hcompleted
      have hphase := hblocked notice hnotice
      rw [hcompleted] at hphase
      cases hphase

/-- The window of a detachment that is made anew. -/
theorem rounds_recreated (hcoherent : c.Coherent) (hrounds : c.Rounds)
    (hevents : c.events = event :: events) (hstate : c.state = .detaching)
    (htype : event.type = .detachCompleted)
    {between : TaskbarLayoutCoordinator σ S W} (type : EventType)
    (hframe : Frame calls ({ c with events := events, state := .recreatingAfterDetach } :
      TaskbarLayoutCoordinator σ S W) between) : (between.post type false).Rounds := by
  have hempty := Coherent.last hcoherent hevents (Or.inl ⟨hstate, htype⟩)
  rw [hempty] at hevents
  have hdetaching : between.detaching = c.detaching := hframe.detaching
  have hstrategies : between.strategies = c.strategies := hframe.strategies
  have hround : (round c.log = none → round between.log = none) ∧
      ∀ released, round c.log = some released →
        ∃ more, round between.log = some more ∧ released ⊆ more := hframe.round
  refine ⟨fun released hsome => ?_, fun hnone => ?_, fun _ => ?_, fun howed => ⟨?_, ?_⟩,
    hframe.answered hrounds.answered⟩
  · change round between.log = some released at hsome
    change ∃ context ∈ between.detaching, _ ∧ ∀ strategy ∈ between.strategies, _
    rw [hdetaching, hstrategies]
    cases hbefore : round c.log with
    | none =>
        rw [hround.1 hbefore] at hsome
        cases hsome
    | some earlier =>
        obtain ⟨more, hmore, hsubset⟩ := hround.2 earlier hbefore
        rw [hmore] at hsome
        obtain rfl := Option.some_inj.1 hsome
        obtain ⟨context, hcontext, hcause, hleft⟩ := hrounds.announced earlier hbefore
        exact ⟨context, hcontext, hcause, fun strategy hmem =>
          (hleft strategy hmem).imp_right fun hreleased => hsubset hreleased⟩
  · change ∀ context ∈ between.detaching, _
    rw [hdetaching]
    apply hrounds.silent
    cases hbefore : round c.log with
    | none => rfl
    | some earlier =>
        obtain ⟨more, hmore, -⟩ := hround.2 earlier hbefore
        exact absurd (hmore.symm.trans hnone) (by rintro ⟨⟩)
  · change ∀ context ∈ between.detaching, _
    rw [hdetaching]
    exact hrounds.emptied (Or.inr (htype ▸ queued_head hevents))
  · change between.state ≠ _
    rw [hframe.state]
    rintro ⟨⟩
  · rcases hframe.owed howed with howed | hqueued
    · refine Or.inr ?_
      change ∃ context ∈ between.detaching, _
      rw [hdetaching]
      exact hrounds.last hevents (by rw [htype]; rintro ⟨⟩) howed
    · exact Or.inl (queued_post_of hqueued _ _)

/-- The completion of a detachment. -/
theorem rounds_finished (hcoherent : c.Coherent) (hrounds : c.Rounds)
    (hevents : c.events = event :: events)
    (hstate : c.state = .detaching ∧ event.type = .detachCompleted ∨
      c.state = .recreatingAfterDetach ∧
        event.type ∈ [EventType.windowRecreated, .windowRecreationFailed]) :
    ({ c with events := events, state := .detached } :
      TaskbarLayoutCoordinator σ S W).finishDetaching.Rounds := by
  have hempty := Coherent.last hcoherent hevents hstate
  rw [hempty] at hevents
  have hdone : c.state = .recreatingAfterDetach ∨ c.Queued .detachCompleted := by
    rcases hstate with ⟨-, htype⟩ | ⟨hstate, -⟩
    · exact Or.inr (htype ▸ queued_head hevents)
    · exact Or.inl hstate
  have hother : event.type ≠ .hostInvalidated := by
    rcases hstate with ⟨-, htype⟩ | ⟨-, htype⟩
    · rw [htype]
      rintro ⟨⟩
    · intro hhost
      rw [hhost] at htype
      revert htype
      decide
  have hreason : owed c.log = true →
      (c.detaching.elim DetachmentCause.userRequested (·.cause)).reason = .hostInvalidated := by
    intro howed
    obtain ⟨context, hcontext, hcause⟩ := hrounds.last hevents hother howed
    rw [Option.mem_def.1 hcontext]
    change context.cause.reason = _
    rw [hcause]
    rfl
  refine Rounds.of_idle rfl ?_ (fun howed => ?_) ?_
  · exact round_snoc _ _
  · exfalso
    change owed (c.log ++ [.published ⟨.completed,
      (c.detaching.elim DetachmentCause.userRequested (·.cause)).reason⟩]) = true at howed
    rw [owed_snoc] at howed
    cases hbefore : owed c.log with
    | true =>
        rw [hreason hbefore, hbefore] at howed
        cases howed
    | false =>
        rw [hbefore] at howed
        revert howed
        cases (c.detaching.elim DetachmentCause.userRequested (·.cause)).reason <;> rintro ⟨⟩
  · refine answered_snoc hrounds.answered fun reason hentry => ?_
    injection hentry with hentry
    injection hentry with _ hentry
    refine ⟨fun released hsome strategy hmem => ?_, fun howed => hentry ▸ hreason howed⟩
    obtain ⟨context, hcontext, -, hleft⟩ := hrounds.announced released hsome
    refine (hleft strategy hmem).resolve_left ?_
    rw [hrounds.emptied hdone context hcontext]
    exact List.not_mem_nil

/-- Nothing is held that an invalidated host could take away. -/
theorem rounds_refreshed (hcoherent : c.Coherent) (hrounds : c.Rounds)
    (hstate : c.state = .detached) :
    ({ c with events := events } : TaskbarLayoutCoordinator σ S W).scheduleDetachedHostRefresh.Rounds := by
  have hidle := (Coherent.idle hcoherent (by
    rw [hstate]
    decide)).1
  have hnone : owed c.log ≠ true := fun howed => (hrounds.unpaid howed).1 hstate
  rw [scheduleDetachedHostRefresh]
  split_ifs
  · exact Rounds.of_idle hidle (hrounds.round_idle hidle) (fun howed => absurd howed hnone)
      hrounds.answered
  · have hround : round (c.log ++ [.refreshScheduled]) = none := by
      rw [round_snoc, hrounds.round_idle hidle]
      rfl
    have howed : owed (c.log ++ [.refreshScheduled]) = owed c.log := owed_snoc _ _
    refine Rounds.of_idle hidle hround (fun hdue => ?_) (answered_snoc hrounds.answered (by rintro _ ⟨⟩))
    change owed (c.log ++ [.refreshScheduled]) = true at hdue
    rw [howed] at hdue
    exact absurd hdue hnone

/-- Every event leaves the rounds as they should be. -/
theorem rounds_process (hcoherent : c.Coherent) (htimed : c.Timed) (hrounds : c.Rounds)
    (hevents : c.events = event :: events) (hheeds : c.Heeds .process)
    {after : TaskbarLayoutCoordinator σ S W}
    (hhandled : Handled calls ({ c with events := events } : TaskbarLayoutCoordinator σ S W) event
      after) : after.Rounds := by
  cases hhandled with
  | kept hkept hstate hhost => exact rounds_kept hcoherent hrounds hevents hheeds hkept hstate hhost
  | @operated first between type hkept hframe hstate hfirst hhost =>
      exact rounds_operated hcoherent hrounds hevents type hkept hframe hstate hfirst hhost
  | begun hstate hbegun hhost => exact rounds_begun hcoherent hrounds hevents hstate hbegun hhost
  | escalated hstate htype => exact rounds_escalated hcoherent hrounds hevents hheeds hstate htype
  | scheduled hstate htype =>
      exact hrounds.same hevents rfl rfl rfl rfl rfl fun hhost => by
        rw [hhost] at htype
        cases htype
  | advanced hstate htype => exact rounds_advanced hcoherent htimed hrounds hevents hstate htype
  | @recreated between type hstate htype hframe =>
      exact rounds_recreated hcoherent hrounds hevents hstate htype type hframe
  | finished hstate => exact rounds_finished (c := c) hcoherent hrounds hevents hstate
  | refreshed hstate => exact rounds_refreshed hcoherent hrounds hstate

/-! ## Runs -/

/-- What holds before and after every move. -/
structure Heeded (c : TaskbarLayoutCoordinator σ S W) : Prop where
  coherent : c.Coherent
  timed : c.Timed
  rounds : c.Rounds

theorem Coherent.not_holds (hcoherent : c.Coherent) (hstate : c.state = .detached) :
    c.holds = false := by
  cases hcoherent with
  | detached _ _ hattachment htransaction _ hdetaching =>
      rw [holds, hattachment, htransaction, hdetaching]
      rfl
  | prepared hother => exact absurd (hstate.symm.trans hother) (by rintro ⟨⟩)
  | attached hother => exact absurd (hstate.symm.trans hother) (by rintro ⟨⟩)
  | operating hother =>
      rw [hstate] at hother
      exact absurd hother (by decide)
  | detaching hother => exact absurd (hstate.symm.trans hother) (by rintro ⟨⟩)
  | recreating hother => exact absurd (hstate.symm.trans hother) (by rintro ⟨⟩)

/-- An arrival at an empty queue; only an invalidated host is put down. -/
theorem rounds_of_arrival {after : TaskbarLayoutCoordinator σ S W} (hcoherent : c.Coherent)
    (hrounds : c.Rounds) (hempty : c.events = []) (hqueue : after.events = [event])
    (hstate : after.state = c.state) (hdetaching : after.detaching = c.detaching)
    (hstrategies : after.strategies = c.strategies)
    (hlog : after.log = c.log ∨ event.type = .hostInvalidated ∧
      after.log = c.log ++ [.received c.holds])
    (hresult : event.type.isArrival = true) : after.Rounds := by
  have hround : round after.log = round c.log := by
    rcases hlog with hlog | ⟨-, hlog⟩
    · rw [hlog]
    · rw [hlog, round_snoc]
      cases round c.log <;> rfl
  have hhost : owed c.log = true → ∃ context ∈ c.detaching, context.cause = .hostInvalidated := by
    intro howed
    refine (hrounds.unpaid howed).2.resolve_left ?_
    rintro ⟨other, hother, -⟩
    rw [hempty] at hother
    cases hother
  refine ⟨?_, ?_, ?_, fun howed => ?_, ?_⟩
  · rw [hround, hdetaching, hstrategies]
    exact hrounds.announced
  · rw [hround, hdetaching]
    exact hrounds.silent
  · rintro (hrecreating | ⟨other, hother, htype⟩)
    · rw [hdetaching]
      exact hrounds.emptied (Or.inl (hstate.symm.trans hrecreating))
    · rw [hqueue, List.mem_singleton] at hother
      rw [hother] at htype
      rw [htype] at hresult
      cases hresult
  · rw [hstate, hdetaching]
    rcases hlog with hlog | ⟨htype, hlog⟩
    · rw [hlog] at howed
      exact ⟨(hrounds.unpaid howed).1, Or.inr (hhost howed)⟩
    · rw [hlog, owed_snoc] at howed
      cases hholds : c.holds with
      | false =>
          rw [hholds] at howed
          exact ⟨(hrounds.unpaid howed).1, Or.inr (hhost howed)⟩
      | true =>
          refine ⟨fun hdetached => ?_, Or.inl ⟨event, ?_, htype⟩⟩
          · rw [hcoherent.not_holds hdetached] at hholds
            cases hholds
          · rw [hqueue]
            exact List.mem_singleton_self event
  · rw [hstrategies]
    rcases hlog with hlog | ⟨-, hlog⟩
    · rw [hlog]
      exact hrounds.answered
    · rw [hlog]
      exact answered_snoc hrounds.answered (by rintro _ ⟨⟩)

theorem raise_heeded (hheeded : c.Heeded) (hempty : c.events = []) (arrival : Arrival W) :
    (c.raise arrival).Heeded := by
  obtain ⟨hcoherent, htimed, hrounds⟩ := hheeded
  have hraised := raise_coherent hcoherent hempty arrival
  have hqueue : ∀ event : Event W, c.events ++ [event] = [event] := fun event => by
    rw [hempty, List.nil_append]
  have harrived := fun (event : Event W) (last : AttachResult)
      (hresult : event.type.isArrival = true) (hother : event.type ≠ .detachDue) =>
    (⟨timed_of_arrival htimed (hqueue event) rfl rfl hother hresult,
      rounds_of_arrival hcoherent hrounds hempty (hqueue event) rfl rfl rfl (Or.inl rfl) hresult⟩ :
      Timed ({ c with lastAttachResult := last, events := c.events ++ [event] } :
        TaskbarLayoutCoordinator σ S W) ∧
      Rounds ({ c with lastAttachResult := last, events := c.events ++ [event] } :
        TaskbarLayoutCoordinator σ S W))
  cases arrival with
  | prepareAttach window =>
      cases window with
      | none => exact ⟨hcoherent, htimed, hrounds⟩
      | some window =>
          obtain ⟨htimed', hrounds'⟩ := harrived
            { type := .acquireRequested, attachRequest := some { window := window } } .failed rfl
            (by rintro ⟨⟩)
          exact ⟨hraised, htimed', hrounds'⟩
  | activatePrepared =>
      obtain ⟨htimed', hrounds'⟩ := harrived { type := .activateRequested } .failed rfl (by rintro ⟨⟩)
      exact ⟨hraised, htimed', hrounds'⟩
  | detach =>
      rw [raise] at hraised ⊢
      split_ifs at hraised ⊢
      · exact ⟨hcoherent, htimed, hrounds⟩
      · obtain ⟨htimed', hrounds'⟩ := harrived { type := .detachRequested } c.lastAttachResult rfl
          (by rintro ⟨⟩)
        exact ⟨hraised, htimed', hrounds'⟩
  | hostInvalidated =>
      refine ⟨hraised, timed_of_arrival htimed (hqueue _) rfl rfl (by rintro ⟨⟩) rfl, ?_⟩
      exact rounds_of_arrival hcoherent hrounds hempty (hqueue _) rfl rfl rfl
        (Or.inr ⟨rfl, rfl⟩) rfl
  | timeout =>
      rw [raise] at hraised ⊢
      split_ifs at hraised ⊢ with harmed
      · refine ⟨hraised, ⟨by rintro ⟨⟩, fun _ => ⟨(htimed.armed harmed).1, ?_, rfl⟩, ?_⟩, ?_⟩
        · exact congrArg List.length (hqueue _)
        · rintro ⟨other, hother, htype⟩
          change other ∈ c.events ++ [{ type := .detachDue }] at hother
          rw [hqueue, List.mem_singleton] at hother
          rw [hother] at htype
          cases htype
        · exact rounds_of_arrival hcoherent hrounds hempty (hqueue _) rfl rfl rfl (Or.inl rfl) rfl
      · exact ⟨hcoherent, htimed, hrounds⟩

/-- Every move keeps what holds between the moves. -/
theorem step_heeded (hheeded : c.Heeded) (move : Move W) (hheeds : c.Heeds move) :
    (c.step calls move).Heeded := by
  have hcoherent := hheeded.coherent
  cases move with
  | process =>
      cases hevents : c.events with
      | nil =>
          rw [step, hevents]
          exact hheeded
      | cons event events =>
          have hhandled := @handle_cases σ S W _ _ calls c event events hcoherent hevents
          have hstep : c.step calls .process =
              ({ c with events := events } : TaskbarLayoutCoordinator σ S W).handle calls event := by
            rw [step, hevents]
          have hnext := @step_coherent σ S W _ _ c calls hcoherent .process hheeded.timed.timely
          rw [hstep] at hnext ⊢
          exact ⟨hnext, timed_process hcoherent hheeded.timed hevents hheeds hhandled,
            rounds_process hcoherent hheeded.timed hheeded.rounds hevents hheeds hhandled⟩
  | arrive arrival =>
      rw [step]
      split_ifs with hempty
      · exact raise_heeded hheeded (List.isEmpty_iff.1 hempty) arrival
      · exact hheeded
  | refresh =>
      rw [step]
      split_ifs
      · obtain ⟨-, ⟨harmed, hdue, hblocked⟩, ⟨hannounced, hsilent, hemptied, hunpaid, hanswered⟩⟩ :=
          hheeded
        exact ⟨Coherent.notified hcoherent _ false, ⟨harmed, hdue, hblocked⟩,
          ⟨hannounced, hsilent, hemptied, hunpaid, hanswered⟩⟩
      · exact hheeded
  | notify =>
      rw [step]
      split_ifs
      · obtain ⟨-, ⟨harmed, hdue, hblocked⟩, ⟨hannounced, hsilent, hemptied, hunpaid, hanswered⟩⟩ :=
          hheeded
        exact ⟨Coherent.notified hcoherent _ c.hostRefreshScheduled, ⟨harmed, hdue, hblocked⟩,
          ⟨hannounced, hsilent, hemptied, hunpaid, hanswered⟩⟩
      · exact hheeded

theorem construct_heeded (strategies : List S) (shell : σ) :
    (construct strategies shell : TaskbarLayoutCoordinator σ S W).Heeded := by
  refine ⟨construct_coherent strategies shell, ⟨by rintro ⟨⟩, ?_, ?_⟩,
    Rounds.of_idle rfl rfl (by rintro ⟨⟩) ?_⟩
  · rintro ⟨event, hevent, -⟩
    cases hevent
  · rintro ⟨event, hevent, -⟩
    cases hevent
  · intro front reason back hlog
    exact absurd hlog.symm (List.append_ne_nil_of_right_ne_nil front (List.cons_ne_nil _ back))

/-- As long as no host is lost between the completion of a release and its notice, every
round is complete, and what an invalidated host is owed is still to come or is told. -/
theorem host_invalidation_answered (calls : TaskbarShell σ S W) (strategies : List S) (shell : σ)
    (moves : List (Move W))
    (hguarded : Guarded (step calls) Heeds (construct strategies shell) moves) :
    let c := moves.foldl (step calls) (construct strategies shell)
    Answered c.strategies c.log ∧ (c.events = [] → owed c.log = true →
      c.state = .detaching ∧ c.asyncTimer.isSome ∧
        ∃ context ∈ c.detaching, context.cause = .hostInvalidated) := by
  intro c
  have hheeded : c.Heeded := @GuardedRun.preserved _ _ (step calls) Heeds Heeded
    (fun c move hheeded hheeds => step_heeded hheeded move hheeds) _ _
    (construct_heeded strategies shell) hguarded
  refine ⟨hheeded.rounds.answered, fun hempty howed => ?_⟩
  have hquiescent := hheeded.coherent.quiescent hempty
  have hhost : ∃ context ∈ c.detaching, context.cause = .hostInvalidated := by
    refine (hheeded.rounds.unpaid howed).2.resolve_left ?_
    rintro ⟨event, hevent, -⟩
    rw [hempty] at hevent
    cases hevent
  have hstate : c.state = .detaching := by
    have hdetaching : c.state ∈ detachingStates := by
      by_contra hidle
      obtain ⟨context, hcontext, -⟩ := hhost
      rw [(Coherent.idle hheeded.coherent hidle).1] at hcontext
      cases hcontext
    simp only [detachingStates, List.mem_cons, List.not_mem_nil, or_false] at hdetaching
    refine hdetaching.resolve_right fun hrecreating => ?_
    have hmem := hquiescent.state
    rw [hrecreating] at hmem
    revert hmem
    decide
  exact ⟨hstate, (hquiescent.detaching hstate).2, hhost⟩

/-- The host is lost while the user waits for a release: what was asked for becomes a round of
all strategies, which tells of the lost host when it is complete. -/
theorem host_invalidation_answered_attached :
    let moves := attaching ++ [.arrive .detach, .process, .process, .arrive .hostInvalidated,
      .process, .process, .arrive .timeout, .process, .process, .process]
    let c := moves.foldl (step scripted) (construct [0] [])
    .received true ∈ c.log ∧ .published ⟨.completed, .hostInvalidated⟩ ∈ c.log ∧
      Answered c.strategies c.log ∧ (c.events = [] → owed c.log = true →
        c.state = .detaching ∧ c.asyncTimer.isSome ∧
          ∃ context ∈ c.detaching, context.cause = .hostInvalidated) :=
  ⟨by decide +kernel, by decide +kernel,
    host_invalidation_answered scripted [0] [] _ (by decide +kernel)⟩

/-- The host is lost while a strategy releases its attachment, or while the window that the
release has destroyed is made anew.  The completion of the release then closes the round that
has not invalidated the strategy, or tells only that the presentation was released. -/
theorem overtaken_release_loses_invalidation :
    let during := scriptedRun [{}, {}, {}, {}, {}, { raised := [.hostInvalidated] }]
      (attaching ++ overtakenRelease)
    let after := scriptedRun
      [{}, {}, {}, {}, {}, { release := .nativeWindowDestroyed }, { raised := [.hostInvalidated] }]
      (attaching ++ overtakenRelease ++ [.process])
    ¬Answered during.strategies during.log ∧ ¬Answered after.strategies after.log ∧
      after.events = [] ∧ after.state = .detached ∧ owed after.log = true := by
  intro during after
  have hround : round (during.log.take 7) = some [] := by decide +kernel
  have howed : owed (after.log.take 6) = true := by decide +kernel
  refine ⟨fun hanswered => ?_, fun hanswered => ?_, by decide +kernel⟩
  · obtain ⟨hstrategies, -⟩ := hanswered (during.log.take 7) .hostInvalidated []
      (by decide +kernel)
    have hsubset : [0] ⊆ ([] : List ℕ) := hstrategies [] hround
    exact List.cons_ne_nil _ _ (List.subset_nil.1 hsubset)
  · obtain ⟨-, hreason⟩ := hanswered (after.log.take 6) .presentationReleased []
      (by decide +kernel)
    cases hreason howed

end TaskbarLayoutCoordinator

end UwfManager
