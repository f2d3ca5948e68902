import UwfManager.Library.GuardedRun

/-!
# Obligations

Some entries of a trace oblige a system to an answer, some are that answer, and some may
not come while an answer is due.  A monitor with one bit follows the trace; what every
step of a run keeps of it holds of the whole run.
-/

namespace Obligation

variable {α : Type*} (obliges discharges closes : α → Bool)

/-- Between an entry that obliges and one that closes there is an answer. -/
def Met (trace : List α) : Prop :=
  ∀ front entry back, trace = front ++ entry :: back → obliges entry = true →
    ∀ middle closing rest, back = middle ++ closing :: rest → closes closing = true →
      ∃ answer ∈ middle, discharges answer = true

def dueAfter (owed : Bool) (entry : α) : Bool :=
  obliges entry || (owed && !discharges entry)

/-- Whether an answer is due after a trace. -/
def due (owed : Bool) (trace : List α) : Bool := trace.foldl (dueAfter obliges discharges) owed

/-- Nothing closes while an answer is due. -/
def Sound : Bool → List α → Prop
  | _, [] => True
  | owed, entry :: rest =>
      (closes entry = true → owed = false) ∧ Sound (dueAfter obliges discharges owed entry) rest

variable {obliges discharges closes} {owed : Bool} {front back trace : List α}

theorem due_append : due obliges discharges owed (front ++ back) =
    due obliges discharges (due obliges discharges owed front) back :=
  List.foldl_append

theorem sound_append : Sound obliges discharges closes owed (front ++ back) ↔
    Sound obliges discharges closes owed front ∧
      Sound obliges discharges closes (due obliges discharges owed front) back := by
  induction front generalizing owed with
  | nil => exact ⟨fun hback => ⟨trivial, hback⟩, fun hsound => hsound.2⟩
  | cons entry rest ih =>
      rw [List.cons_append, Sound, Sound, ih, and_assoc]
      rfl

/-- What is due stays due until it is answered. -/
theorem due_of_unanswered (hnone : ∀ entry ∈ trace, discharges entry = false) :
    due obliges discharges true trace = true := by
  induction trace with
  | nil => rfl
  | cons entry rest ih =>
      have hentry : dueAfter obliges discharges true entry = true := by
        rw [dueAfter, hnone entry List.mem_cons_self, Bool.not_false, Bool.and_true,
          Bool.or_true]
      rw [due, List.foldl_cons, hentry]
      exact ih fun other hother => hnone other (List.mem_cons_of_mem _ hother)

theorem Sound.met (hsound : Sound obliges discharges closes owed trace) :
    Met obliges discharges closes trace := by
  rintro front entry back rfl hobliges middle closing rest rfl hcloses
  by_contra hunanswered
  have hnone : ∀ other ∈ middle, discharges other = false := by
    intro other hother
    by_contra hanswer
    exact hunanswered ⟨other, hother, Bool.not_eq_false _ |>.mp hanswer⟩
  have hdue : dueAfter obliges discharges (due obliges discharges owed front) entry = true := by
    rw [dueAfter, hobliges, Bool.true_or]
  obtain ⟨-, hback⟩ := (sound_append.1 hsound).2
  rw [hdue] at hback
  have hclosed := (sound_append.1 hback).2.1 hcloses
  rw [due_of_unanswered hnone] at hclosed
  cases hclosed

/-- Nothing is due where nothing was due and nothing obliges. -/
theorem due_of_unobliged (hobliges : ∀ entry ∈ trace, obliges entry = false) :
    due obliges discharges false trace = false := by
  induction trace with
  | nil => rfl
  | cons entry rest ih =>
      have hentry : dueAfter obliges discharges false entry = false := by
        rw [dueAfter, hobliges entry List.mem_cons_self, Bool.false_and, Bool.or_false]
      rw [due, List.foldl_cons, hentry]
      exact ih fun other hother => hobliges other (List.mem_cons_of_mem _ hother)

theorem sound_of_open (hopen : ∀ entry ∈ trace, closes entry = false) :
    Sound obliges discharges closes owed trace := by
  induction trace generalizing owed with
  | nil => exact trivial
  | cons entry rest ih =>
      refine ⟨fun hcloses => ?_, ih fun other hother => hopen other (List.mem_cons_of_mem _ hother)⟩
      rw [hopen entry List.mem_cons_self] at hcloses
      cases hcloses

theorem sound_of_unobliged (hobliges : ∀ entry ∈ trace, obliges entry = false) :
    Sound obliges discharges closes false trace := by
  induction trace with
  | nil => exact trivial
  | cons entry rest ih =>
      refine ⟨fun _ => rfl, ?_⟩
      have hentry : dueAfter obliges discharges false entry = false := by
        rw [dueAfter, hobliges entry List.mem_cons_self, Bool.false_and, Bool.or_false]
      rw [hentry]
      exact ih fun other hother => hobliges other (List.mem_cons_of_mem _ hother)

/-! ## Runs -/

section Run

variable {σ μ : Type*} (step : σ → μ → σ) (seen : σ → μ → List α)

/-- What is seen of the moves of a run. -/
def runTrace : σ → List μ → List α
  | _, [] => []
  | state, move :: moves => seen state move ++ runTrace (step state move) moves

variable {step seen} {guard : σ → μ → Prop} {invariant : Bool → σ → Prop}

/-- What every guarded step keeps of the monitor holds of a guarded run. -/
theorem sound_run
    (hstep : ∀ owed state move, invariant owed state → guard state move →
      Sound obliges discharges closes owed (seen state move) ∧
        invariant (due obliges discharges owed (seen state move)) (step state move))
    {state : σ} {moves : List μ} (hstate : invariant owed state)
    (hguarded : GuardedRun.Guarded step guard state moves) :
    Sound obliges discharges closes owed (runTrace step seen state moves) := by
  induction moves generalizing owed state with
  | nil => exact trivial
  | cons move rest ih =>
      obtain ⟨hsound, hnext⟩ := hstep owed state move hstate hguarded.1
      exact sound_append.2 ⟨hsound, ih hnext hguarded.2⟩

end Run

end Obligation
