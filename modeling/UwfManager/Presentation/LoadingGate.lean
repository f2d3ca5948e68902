import Mathlib.Algebra.GroupWithZero.Nat
import Mathlib.Algebra.Order.Ring.Int
import Mathlib.Data.List.Induction
import Mathlib.Tactic.Common

/-!
# Showing progress before a result

A gate holds the completion of an operation back until its progress was shown long enough.
A callback is always called last, so what it does to the gate are further moves, made before
it returns.
-/

namespace UwfManager

namespace LoadingGate

abbrev Ticket := UInt64

/-- `timing::kMinimumProgressDisplayDuration`, in milliseconds -/
def kMinimumProgressDisplayDuration : ℤ := 1000

/-- The members of the gate, and the callbacks that have not returned yet. -/
structure Gate (κ : Type*) where
  timer : Bool := false
  revealTimer : Bool := false
  /-- the slot that is connected to the reveal timer, with its `onReveal` -/
  revealSlot : Option (Option κ) := none
  elapsed : Option ℤ := none
  completion : Option κ := none
  ticket : Ticket := 0
  active : Bool := false
  progressVisible : Bool := false
  running : List κ := []

/-- What the users of the gate see of it. -/
inductive Occurrence (κ : Type*) where
  | began (ticket : Ticket)
  | cancelled
  | published (ticket : Ticket) (completion : Option κ)
  | delivered (ticket : Ticket) (completion : κ)

inductive Move (κ : Type*) where
  | begin (now revealDelay : ℤ) (onReveal : Option κ)
  | publish (now : ℤ) (ticket : Ticket) (completion : Option κ)
  | cancel
  | timeout
  | revealTimeout (now : ℤ)
  | returned

variable {κ : Type*}

namespace Gate

def cancel (gate : Gate κ) : Gate κ :=
  { gate with
    ticket := gate.ticket + 1
    active := false
    timer := false
    revealTimer := false
    completion := none
    elapsed := none }

def begin (gate : Gate κ) (now revealDelay : ℤ) (onReveal : Option κ) : Gate κ :=
  let gate := { gate.cancel with
    active := true
    elapsed := some now
    progressVisible := decide (revealDelay ≤ 0)
    revealSlot := none }
  if !gate.progressVisible then { gate with revealSlot := some onReveal, revealTimer := true }
  else gate

def isCurrent (gate : Gate κ) (ticket : Ticket) : Bool := ticket == gate.ticket

def finish (gate : Gate κ) : Gate κ × List (Occurrence κ) :=
  if !gate.active then (gate, [])
  else
    let finished := { gate with completion := none, active := false, elapsed := none }
    match gate.completion with
    | some completion =>
        ({ finished with running := completion :: gate.running },
          [.delivered gate.ticket completion])
    | none => (finished, [])

def publish (gate : Gate κ) (now : ℤ) (ticket : Ticket) (completion : Option κ) :
    Gate κ × List (Occurrence κ) :=
  if !gate.active || !gate.isCurrent ticket || gate.completion.isSome then (gate, [])
  else
    let gate := { gate with completion }
    if !gate.progressVisible then finish { gate with revealTimer := false }
    else
      let remaining := kMinimumProgressDisplayDuration - (now - gate.elapsed.getD now)
      if remaining > 0 then ({ gate with timer := true }, []) else gate.finish

/-- The slot of the reveal timer. -/
def reveal (gate : Gate κ) (now : ℤ) : Gate κ :=
  match gate.revealSlot with
  | some onReveal =>
      { gate with
        revealTimer := false
        progressVisible := true
        elapsed := some now
        running := onReveal.toList ++ gate.running }
  | none => { gate with revealTimer := false }

/-- One move and what it shows.  A timeout can arrive when its timer was stopped already. -/
def perform (gate : Gate κ) : Move κ → Gate κ × List (Occurrence κ)
  | .begin now revealDelay onReveal =>
      let begun := gate.begin now revealDelay onReveal
      (begun, [.began begun.ticket])
  | .publish now ticket completion =>
      let (published, told) := gate.publish now ticket completion
      (published, .published ticket completion :: told)
  | .cancel => (gate.cancel, [.cancelled])
  | .timeout => finish { gate with timer := false }
  | .revealTimeout now => (gate.reveal now, [])
  | .returned => ({ gate with running := gate.running.tail }, [])

end Gate

/-- All moves in their order: the gate after them and everything it showed. -/
def run (moves : List (Move κ)) : Gate κ × List (Occurrence κ) :=
  moves.foldl (fun (gate, log) move => ((gate.perform move).1, log ++ (gate.perform move).2))
    ({}, [])

theorem run_concat (moves : List (Move κ)) (move : Move κ) :
    run (moves ++ [move]) =
      (((run moves).1.perform move).1, (run moves).2 ++ ((run moves).1.perform move).2) := by
  rw [run, List.foldl_append]
  rfl

/-! ## Tickets in the log -/

/-- A begin or a cancel: it takes a new ticket. -/
def Occurrence.supersedes : Occurrence κ → Bool
  | .began _ => true
  | .cancelled => true
  | .published _ _ => false
  | .delivered _ _ => false

/-- How many tickets were taken. -/
def taken (log : List (Occurrence κ)) : ℕ := log.countP Occurrence.supersedes

@[simp] theorem taken_append (log later : List (Occurrence κ)) :
    taken (log ++ later) = taken log + taken later := List.countP_append

@[simp] theorem taken_delivered (ticket : Ticket) (completion : κ) (log : List (Occurrence κ)) :
    taken (.delivered ticket completion :: log) = taken log := List.countP_cons_of_neg (by simp
      [Occurrence.supersedes])

/-- The log ends with the begin of the ticket and calls of publish behind it, one of them with
each of the completions. -/
def Pending (log : List (Occurrence κ)) (ticket : Ticket) (completion : Option κ) : Prop :=
  ∃ earlier later, log = earlier ++ .began ticket :: later ∧
    (∀ occurrence ∈ later, ∃ other given, occurrence = .published other given) ∧
    ∀ c ∈ completion, .published ticket (some c) ∈ later

/-- A delivery is due: its ticket was begun last, and its completion was published since. -/
def Due (log : List (Occurrence κ)) (ticket : Ticket) (completion : κ) : Prop :=
  Pending log ticket (some completion) ∧ ticket = UInt64.ofNat (taken log)

/-- What holds between the gate and the log at any time. -/
structure Consistent (gate : Gate κ) (log : List (Occurrence κ)) : Prop where
  counted : gate.ticket = UInt64.ofNat (taken log)
  pending : gate.active = true → Pending log gate.ticket gate.completion
  delivered : ∀ before ticket completion after,
    log = before ++ .delivered ticket completion :: after → Due before ticket completion

/-- An entry of a longer log is the last one or an entry of the log before it. -/
theorem concat_split {α : Type*} {log before after : List α} {last entry : α}
    (h : log ++ [last] = before ++ entry :: after) :
    (log = before ∧ last = entry) ∨ ∃ shorter, log = before ++ entry :: shorter := by
  rcases List.eq_nil_or_concat after with rfl | ⟨shorter, final, rfl⟩
  · obtain ⟨hlog, hlast⟩ := List.append_inj' h rfl
    exact Or.inl ⟨hlog, (List.cons.inj hlast).1⟩
  · right
    rw [List.concat_eq_append, ← List.cons_append, ← List.append_assoc] at h
    exact ⟨shorter, (List.append_inj' h rfl).1⟩

/-- Only a delivery adds to the deliveries. -/
theorem delivered_concat {log : List (Occurrence κ)} {occurrence : Occurrence κ}
    (hlog : ∀ before ticket completion after,
      log = before ++ .delivered ticket completion :: after → Due before ticket completion)
    (hlast : ∀ ticket completion, occurrence = .delivered ticket completion →
      Due log ticket completion)
    (before : List (Occurrence κ)) (ticket : Ticket) (completion : κ)
    (after : List (Occurrence κ))
    (h : log ++ [occurrence] = before ++ .delivered ticket completion :: after) :
    Due before ticket completion := by
  rcases concat_split h with ⟨rfl, hsame⟩ | ⟨shorter, hshorter⟩
  · exact hlast ticket completion hsame
  · exact hlog before ticket completion shorter hshorter

/-! ## One move -/

/-- The timers, the clock and the running callbacks do not matter. -/
theorem Consistent.congr {gate other : Gate κ} {log : List (Occurrence κ)}
    (hgate : Consistent gate log) (hticket : other.ticket = gate.ticket)
    (hactive : other.active = gate.active) (hcompletion : other.completion = gate.completion) :
    Consistent other log := by
  refine ⟨hticket.trans hgate.counted, ?_, hgate.delivered⟩
  rw [hactive, hticket, hcompletion]
  exact hgate.pending

theorem ticket_succ {ticket : Ticket} {log : List (Occurrence κ)} {occurrence : Occurrence κ}
    (hcounted : ticket = UInt64.ofNat (taken log)) (hnew : occurrence.supersedes = true) :
    ticket + 1 = UInt64.ofNat (taken (log ++ [occurrence])) := by
  have hone : taken [occurrence] = 1 := List.countP_cons_of_pos hnew
  rw [taken_append, hone, UInt64.ofNat_add, hcounted]
  rfl

theorem Consistent.cancel {gate : Gate κ} {log : List (Occurrence κ)}
    (hgate : Consistent gate log) : Consistent gate.cancel (log ++ [.cancelled]) where
  counted := ticket_succ hgate.counted rfl
  pending := by
    intro hactive
    cases hactive
  delivered := by
    apply delivered_concat hgate.delivered
    intro ticket completion h
    cases h

@[simp] theorem begin_ticket (gate : Gate κ) (now revealDelay : ℤ) (onReveal : Option κ) :
    (gate.begin now revealDelay onReveal).ticket = gate.ticket + 1 := by
  rw [Gate.begin]
  split <;> rfl

@[simp] theorem begin_completion (gate : Gate κ) (now revealDelay : ℤ) (onReveal : Option κ) :
    (gate.begin now revealDelay onReveal).completion = none := by
  rw [Gate.begin]
  split <;> rfl

theorem Consistent.begin {gate : Gate κ} {log : List (Occurrence κ)}
    (hgate : Consistent gate log) (now revealDelay : ℤ) (onReveal : Option κ) :
    Consistent (gate.begin now revealDelay onReveal)
      (log ++ [.began (gate.begin now revealDelay onReveal).ticket]) where
  counted := by
    rw [begin_ticket]
    exact ticket_succ hgate.counted rfl
  pending := by
    intro _
    refine ⟨log, [], rfl, ?_, ?_⟩
    · intro occurrence hmem
      cases hmem
    · intro c hc
      rw [begin_completion] at hc
      cases hc
  delivered := by
    apply delivered_concat hgate.delivered
    intro ticket completion h
    cases h

/-- A call of publish leaves a pending operation pending. -/
theorem Pending.published {log : List (Occurrence κ)} {ticket : Ticket} {completion : Option κ}
    (hlog : Pending log ticket completion) (other : Ticket) (given : Option κ) :
    Pending (log ++ [.published other given]) ticket completion := by
  obtain ⟨earlier, later, rfl, hlater, hpublished⟩ := hlog
  refine ⟨earlier, later ++ [.published other given], ?_, ?_, ?_⟩
  · rw [List.append_assoc, List.cons_append]
  · intro occurrence hmem
    rcases List.mem_append.1 hmem with hmem | hmem
    · exact hlater occurrence hmem
    · exact ⟨other, given, List.mem_singleton.1 hmem⟩
  · intro c hc
    exact List.mem_append_left _ (hpublished c hc)

/-- Calling publish, before the gate does anything about it. -/
theorem Consistent.published {gate : Gate κ} {log : List (Occurrence κ)}
    (hgate : Consistent gate log) (ticket : Ticket) (completion : Option κ) :
    Consistent gate (log ++ [.published ticket completion]) where
  counted := by
    rw [taken_append]
    exact hgate.counted
  pending := by
    intro hactive
    exact (hgate.pending hactive).published ticket completion
  delivered := by
    apply delivered_concat hgate.delivered
    intro other given h
    cases h

/-- The completion of the current ticket is stored. -/
theorem Consistent.stored {gate : Gate κ} {log : List (Occurrence κ)}
    (hgate : Consistent gate log) (completion : Option κ) :
    Consistent { gate with completion } (log ++ [.published gate.ticket completion]) where
  counted := (hgate.published gate.ticket completion).counted
  pending := by
    intro hactive
    obtain ⟨earlier, later, rfl, hlater, -⟩ := hgate.pending hactive
    refine ⟨earlier, later ++ [.published gate.ticket completion], ?_, ?_, ?_⟩
    · rw [List.append_assoc, List.cons_append]
    · intro occurrence hmem
      rcases List.mem_append.1 hmem with hmem | hmem
      · exact hlater occurrence hmem
      · exact ⟨gate.ticket, completion, List.mem_singleton.1 hmem⟩
    · rintro c hc
      obtain rfl : completion = some c := hc
      exact List.mem_append_right _ (List.mem_singleton_self _)
  delivered := (hgate.published gate.ticket completion).delivered

/-- What is delivered is due, and nothing is pending behind it. -/
theorem Consistent.finish {gate : Gate κ} {log : List (Occurrence κ)}
    (hgate : Consistent gate log) : Consistent gate.finish.1 (log ++ gate.finish.2) := by
  rw [Gate.finish]
  cases hactive : gate.active with
  | false => simpa using hgate
  | true =>
      have hidle : ∀ running : List κ, Consistent
          { gate with completion := none, active := false, elapsed := none, running } log := by
        intro running
        refine ⟨hgate.counted, ?_, hgate.delivered⟩
        intro h
        cases h
      cases hcompletion : gate.completion with
      | none => simpa using hidle gate.running
      | some completion =>
          have hpending := hgate.pending hactive
          rw [hcompletion] at hpending
          refine ⟨?_, ?_, ?_⟩
          · change gate.ticket = UInt64.ofNat (taken (log ++ [_]))
            rw [taken_append]
            exact hgate.counted
          · intro h
            cases h
          · apply delivered_concat hgate.delivered
            intro ticket given h
            cases h
            exact ⟨hpending, hgate.counted⟩

theorem Consistent.publish {gate : Gate κ} {log : List (Occurrence κ)}
    (hgate : Consistent gate log) (now : ℤ) (ticket : Ticket) (completion : Option κ) :
    Consistent (gate.publish now ticket completion).1
      (log ++ .published ticket completion :: (gate.publish now ticket completion).2) := by
  rw [← List.singleton_append, ← List.append_assoc, Gate.publish]
  split
  · rw [List.append_nil]
    exact hgate.published ticket completion
  next hheeded =>
    have hcurrent : ticket = gate.ticket := by
      simp only [Gate.isCurrent, Bool.or_eq_true, Bool.not_eq_true', beq_eq_false_iff_ne,
        not_or, not_not] at hheeded
      exact hheeded.1.2
    subst hcurrent
    have hstored := hgate.stored completion
    dsimp only
    split
    · apply Consistent.finish
      exact hstored.congr rfl rfl rfl
    · split
      · rw [List.append_nil]
        exact hstored.congr rfl rfl rfl
      · exact hstored.finish

theorem Consistent.perform {gate : Gate κ} {log : List (Occurrence κ)}
    (hgate : Consistent gate log) (move : Move κ) :
    Consistent (gate.perform move).1 (log ++ (gate.perform move).2) := by
  cases move with
  | begin now revealDelay onReveal => exact hgate.begin now revealDelay onReveal
  | publish now ticket completion => exact hgate.publish now ticket completion
  | cancel => exact hgate.cancel
  | timeout =>
      have hstopped : Consistent { gate with timer := false } log := hgate.congr rfl rfl rfl
      exact hstopped.finish
  | revealTimeout now =>
      rw [Gate.perform, List.append_nil]
      apply hgate.congr
      all_goals
        rw [Gate.reveal]
        split <;> rfl
  | returned =>
      rw [Gate.perform, List.append_nil]
      exact hgate.congr rfl rfl rfl

theorem consistent_run (moves : List (Move κ)) : Consistent (run moves).1 (run moves).2 := by
  induction moves using List.reverseRecOn with
  | nil =>
      refine ⟨rfl, ?_, ?_⟩
      · intro h
        cases h
      · intro before ticket completion after h
        exact absurd h (by simp [run])
  | append_singleton moves move ih =>
      rw [run_concat]
      exact ih.perform move

/-! ## Deliveries -/

/-- Behind a delivery the next one waits for another begin. -/
theorem taken_between {before between : List (Occurrence κ)} {ticket other : Ticket}
    {completion : κ} {given : Option κ}
    (hpending : Pending (before ++ .delivered ticket completion :: between) other given) :
    0 < taken between := by
  obtain ⟨earlier, later, hlog, hlater, -⟩ := hpending
  rcases List.append_eq_append_iff.1 hlog with ⟨gap, -, hgap⟩ | ⟨gap, -, hgap⟩
  · cases gap with
    | nil => cases hgap
    | cons first gap =>
        obtain ⟨-, hbetween⟩ := List.cons.inj hgap
        have hlast : taken (.began other :: later) = taken later + 1 :=
          List.countP_cons_of_pos rfl
        rw [hbetween]
        change 0 < taken (gap ++ .began other :: later)
        rw [taken_append, hlast]
        omega
  · cases gap with
    | nil => cases hgap
    | cons first gap =>
        obtain ⟨-, rfl⟩ := List.cons.inj hgap
        obtain ⟨_, _, hpublished⟩ := hlater (.delivered ticket completion) (by simp)
        cases hpublished

/-- Each delivery is of the operation begun last and not cancelled since; its completion was
published in the meantime, and nothing was delivered.  So there is one delivery at most for a
begin, and for a ticket too until all the other tickets have been taken. -/
theorem delivered_once (moves : List (Move κ)) :
    (∀ before ticket completion after,
      (run moves).2 = before ++ .delivered ticket completion :: after →
      ∃ earlier later, before = earlier ++ .began ticket :: later ∧
        .published ticket (some completion) ∈ later ∧
        ∀ occurrence ∈ later, ∃ other given, occurrence = .published other given) ∧
    (∀ before between after ticket first second,
      (run moves).2 = before ++ .delivered ticket first :: between ++
        .delivered ticket second :: after →
      2 ^ 64 ≤ taken between) := by
  have hrun := consistent_run moves
  constructor
  · intro before ticket completion after hlog
    obtain ⟨⟨earlier, later, hbefore, hlater, hpublished⟩, -⟩ :=
      hrun.delivered before ticket completion after hlog
    exact ⟨earlier, later, hbefore, hpublished completion rfl, hlater⟩
  · intro before between after ticket first second hlog
    obtain ⟨hpending, hsecond⟩ := hrun.delivered _ ticket second after hlog
    have hpositive := taken_between hpending
    rw [List.append_assoc, List.cons_append] at hlog
    obtain ⟨-, hfirst⟩ := hrun.delivered before ticket first _ hlog
    have hcongr : taken before % 2 ^ 64 = (taken before + taken between) % 2 ^ 64 := by
      have hsame := congrArg UInt64.toNat (hfirst.symm.trans hsecond)
      rwa [UInt64.toNat_ofNat', UInt64.toNat_ofNat', taken_append, taken_delivered] at hsame
    omega

/-- A result that comes early is held back until the timer fires. -/
theorem delivered_once_held :
    let moves : List (Move ℕ) :=
      [.begin 0 0 none, .publish 400 1 (some 7), .timeout, .returned, .timeout]
    let before : List (Occurrence ℕ) := [.began 1, .published 1 (some 7)]
    (run moves).2 = before ++ [.delivered 1 7] ∧
      ∃ earlier later, before = earlier ++ .began 1 :: later ∧ .published 1 (some 7) ∈ later := by
  intro moves before
  have hrun : (run moves).2 = before ++ [.delivered 1 7] := rfl
  obtain ⟨earlier, later, hbefore, hpublished, -⟩ := (delivered_once moves).1 before 1 7 [] hrun
  exact ⟨hrun, earlier, later, hbefore, hpublished⟩

end LoadingGate

end UwfManager
