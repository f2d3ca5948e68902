import UwfManager.Power.DialogOutcomes

/-!
# The calls a dialog makes

Whatever the callbacks of a request do, the dialog asks for the preparation until it has
a result and never again, and it advances a commit only once one was prepared and until
it has ended.
-/

namespace UwfManager

open PowerDialogViewModel

variable {σ α : Type}

inductive StagingCall where
  | polled (answer : Except Thrown (Option PowerStagingPreparation))
  | advanced (answer : Except Thrown PowerStagingProgress)

/-- How far the calls have come. -/
inductive CallPhase where
  | polling
  | prepared
  | advancing
  | over
  deriving DecidableEq, Repr

namespace CallPhase

/-- The phase after a step of the commit. -/
def advanced : Except Thrown PowerStagingProgress → CallPhase
  | .error _ => .over
  | .ok status => if status.state = .inProgress then .advancing else .over

/-- The calls that are in order, by the phase they are made in. -/
def next : CallPhase → StagingCall → Option CallPhase
  | .polling, .polled (.ok none) => some .polling
  | .polling, .polled (.ok (some (.commit _))) => some .prepared
  | .polling, .polled _ => some .over
  | .prepared, .advanced answer => some (advanced answer)
  | .advancing, .advanced answer => some (advanced answer)
  | _, _ => none

/-- The phase after a list of calls, if all of them were in order. -/
def after? (calls : List StagingCall) : Option CallPhase := calls.foldlM next .polling

theorem after?_append_singleton {calls : List StagingCall} {phase : CallPhase}
    (hphase : after? calls = some phase) (call : StagingCall) :
    after? (calls ++ [call]) = phase.next call := by
  rw [after?, List.foldlM_append, ← after?, hphase]
  simp

end CallPhase

namespace PowerDialogCallbacks

/-- The same callbacks, with every call and its answer kept. -/
def logged (callbacks : PowerDialogCallbacks σ α) :
    PowerDialogCallbacks (σ × List StagingCall) α where
  poll answers kept :=
    let (answer, shared) := callbacks.poll answers kept.1
    (answer, shared, kept.2 ++ [.polled answer])
  advance answers kept :=
    let (answer, shared) := callbacks.advance answers kept.1
    (answer, shared, kept.2 ++ [.advanced answer])

/-- The contract that asks for nothing. -/
def anyContract (callbacks : PowerDialogCallbacks σ α) : PowerDialogContract callbacks where
  Polling _ := True
  Prepared _ := True
  Advancing _ := True
  Succeeded _ := True
  Recorded _ := True
  Stopped _ := True
  stopped_of_polling := id
  stopped_of_prepared := id
  stopped_of_succeeded := id
  advancing_of_prepared := id
  poll_thrown := fun _ _ => trivial
  poll_pending := fun _ _ => trivial
  poll_notRequired := fun _ _ => trivial
  poll_commit := fun _ _ => trivial
  poll_failure := fun _ _ => ⟨trivial, fun _ => trivial⟩
  advance_thrown := fun _ _ => trivial
  advance_inProgress := fun _ _ _ => trivial
  advance_completed := fun _ _ _ => trivial
  advance_failed := fun _ _ _ => ⟨trivial, fun _ => trivial⟩

open CallPhase

variable {callbacks : PowerDialogCallbacks σ α} {answers : α} {kept after : σ × List StagingCall}

theorem after?_of_poll {answer : Except Thrown (Option PowerStagingPreparation)}
    (hpolling : after? kept.2 = some .polling)
    (hanswer : callbacks.logged.poll answers kept = (answer, after)) :
    after? after.2 = next .polling (.polled answer) := by
  obtain ⟨rfl, rfl⟩ := Prod.mk.inj hanswer
  exact after?_append_singleton hpolling _

theorem after?_of_advance {answer : Except Thrown PowerStagingProgress}
    (hadvancing : after? kept.2 = some .prepared ∨ after? kept.2 = some .advancing)
    (hanswer : callbacks.logged.advance answers kept = (answer, after)) :
    after? after.2 = some (advanced answer) := by
  obtain ⟨rfl, rfl⟩ := Prod.mk.inj hanswer
  rcases hadvancing with hprepared | hadvancing
  · exact after?_append_singleton hprepared _
  · exact after?_append_singleton hadvancing _

/-- Being in order is itself a contract, which any callbacks meet. -/
def orderContract (callbacks : PowerDialogCallbacks σ α) :
    PowerDialogContract callbacks.logged where
  Polling kept := after? kept.2 = some .polling
  Prepared kept := after? kept.2 = some .prepared
  Advancing kept := after? kept.2 = some .prepared ∨ after? kept.2 = some .advancing
  Succeeded kept := (after? kept.2).isSome = true
  Recorded kept := (after? kept.2).isSome = true
  Stopped kept := (after? kept.2).isSome = true
  stopped_of_polling := fun hpolling => by rw [hpolling]; rfl
  stopped_of_prepared := fun hprepared => by rw [hprepared]; rfl
  stopped_of_succeeded := id
  advancing_of_prepared := Or.inl
  poll_thrown := fun hpolling hanswer => by rw [after?_of_poll hpolling hanswer]; rfl
  poll_pending := fun hpolling hanswer => after?_of_poll hpolling hanswer
  poll_notRequired := fun hpolling hanswer => by rw [after?_of_poll hpolling hanswer]; rfl
  poll_commit := fun hpolling hanswer => after?_of_poll hpolling hanswer
  poll_failure := fun hpolling hanswer => by
    rw [after?_of_poll hpolling hanswer]
    exact ⟨rfl, fun _ => rfl⟩
  advance_thrown := fun hadvancing hanswer => by
    rw [after?_of_advance hadvancing hanswer]
    rfl
  advance_inProgress := fun hadvancing hanswer hstate => by
    rw [after?_of_advance hadvancing hanswer, advanced, if_pos hstate]
    exact Or.inr rfl
  advance_completed := fun hadvancing hanswer _ => by
    rw [after?_of_advance hadvancing hanswer]
    rfl
  advance_failed := fun hadvancing hanswer _ => by
    rw [after?_of_advance hadvancing hanswer]
    exact ⟨rfl, fun _ => rfl⟩

end PowerDialogCallbacks

namespace PowerConfirmDialog

/-- In every situation of the dialog the calls so far were in order. -/
theorem isSome_after?_of_sound {callbacks : PowerDialogCallbacks σ α}
    {dialog : PowerConfirmDialog} {kept : σ × List StagingCall}
    (hsound : Sound callbacks.orderContract dialog kept) :
    (CallPhase.after? kept.2).isSome = true := by
  rw [Sound] at hsound
  cases hresult : dialog.result with
  | some accepted =>
      rw [hresult] at hsound
      exact hsound.stopped
  | none =>
      rw [hresult] at hsound
      by_cases hrejection : dialog.rejectionEnabled = true
      · exact stopped_of_rejectable hsound hrejection
      · rcases hsound with hpreparing | hconfirming | hcommitting | hdeciding
        · exact absurd hpreparing.rejection hrejection
        · exact absurd hconfirming.rejection hrejection
        · rcases hcommitting.advancing with hphase | hphase
          · rw [hphase]
            rfl
          · rw [hphase]
            rfl
        · exact absurd hdeciding.rejection hrejection

end PowerConfirmDialog

namespace PowerDialogRun

open PowerConfirmDialog

/-- The preparation is not asked again after its result, and a commit is advanced only from
its preparation to its end, in every run and for callbacks that answer anything. -/
theorem calls_in_order (callbacks : PowerDialogCallbacks σ α) (shared : σ) (action : PowerAction)
    (inputs : List (PowerDialogInput α)) :
    (CallPhase.after? (exec callbacks.logged { action := action } true (shared, [])
      inputs).shared.2).isSome = true := by
  have hinitial : callbacks.orderContract.Polling (shared, []) := rfl
  have hkept : Kept callbacks.orderContract
      (exec callbacks.logged { action := action } true (shared, []) inputs) :=
    sound_exec callbacks.orderContract rfl rfl hinitial inputs
  obtain ⟨dialog, -, hsound⟩ := hkept
  exact isSome_after?_of_sound hsound

/-- No slot of the dialog throws; while it is open, the timer of its phase runs and the
buttons are those of its phase, so that it can go on from everywhere. -/
theorem open_dialog_awaits (callbacks : PowerDialogCallbacks σ α) (shared : σ)
    (action : PowerAction) (inputs : List (PowerDialogInput α)) :
    ∃ dialog, (exec callbacks { action := action } true shared inputs).dialog = .ok dialog ∧
      (dialog.result = none → Awaits dialog) ∧
      ∀ accepted, dialog.result = some accepted →
        ∃ outcome, dialog.viewModel.finish accepted = .ok outcome := by
  have hkept : Kept callbacks.anyContract
      (exec callbacks { action := action } true shared inputs) :=
    sound_exec callbacks.anyContract rfl rfl trivial inputs
  obtain ⟨dialog, hdialog, hsound⟩ := hkept
  refine ⟨dialog, hdialog, ?_, ?_⟩
  · intro hopen
    rw [Sound, hopen] at hsound
    exact awaits_of_waiting hsound
  · intro accepted hclosed
    rw [Sound, hclosed] at hsound
    obtain ⟨outcome, hfinish, -⟩ := hsound.outcome
    exact ⟨outcome, hfinish⟩

end PowerDialogRun

end UwfManager
