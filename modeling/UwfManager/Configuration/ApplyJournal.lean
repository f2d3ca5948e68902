import UwfManager.Configuration.ConfigurationPlan
import UwfManager.Core.OverlayWritePlan

/-!
# The journal of an apply

Every write of an apply is recorded with the operations of the plan it stands
for, whether it succeeded and what is known about its effect.
-/

namespace UwfManager

inductive ConfigurationStepOutcome where
  | succeeded
  | failed
  | skipped
  deriving DecidableEq, Repr

structure ConfigurationStepResult where
  description : Message
  outcome : ConfigurationStepOutcome
  writeEffect : WriteEffect
  operation : Option ConfigurationOperation

structure ApplyMessages where
  success : Message
  failure : Message

inductive VolumeRegistrationDisposition where
  | alreadyPresent
  | created
  | concurrentlyCreated
  | confirmedAfterUncertainWrite
  deriving DecidableEq, Repr

structure ApplyJournal where
  lines : List Message := []
  steps : List ConfigurationStepResult := []
  stepEffect : WriteEffect := .none
  operations : List ConfigurationOperation := []
  anyWriteConfirmed : Bool := false
  reconciliationRequired : Bool := false
  succeededOperations : ℕ := 0
  failedOperations : ℕ := 0

namespace ApplyJournal

def skippedMessage : Message :=
  .plain "Skipped because a prerequisite operation failed or could not be confirmed."

def begin (journal : ApplyJournal) (kind : ConfigurationOperationKind) (target : Text) :
    ApplyJournal :=
  { journal with operations := [⟨kind, target⟩], stepEffect := .none }

/-- The source calls it `include`. -/
def includeOperation (journal : ApplyJournal) (kind : ConfigurationOperationKind) :
    ApplyJournal :=
  { journal with operations := journal.operations ++ [⟨kind, []⟩] }

def endOperation (journal : ApplyJournal) : ApplyJournal :=
  { journal with operations := [], stepEffect := .none }

def recordSteps (journal : ApplyJournal) (message : Message)
    (outcome : ConfigurationStepOutcome) : ApplyJournal :=
  let recorded :=
    if journal.operations.isEmpty then [⟨message, outcome, journal.stepEffect, none⟩]
    else journal.operations.map fun operation =>
      ⟨message, outcome, journal.stepEffect, some operation⟩
  endOperation { journal with steps := journal.steps ++ recorded }

def recordSuccess (journal : ApplyJournal) (message : Message) : ApplyJournal :=
  let journal := journal.recordSteps message .succeeded
  { journal with
    succeededOperations := journal.succeededOperations + 1
    lines := journal.lines ++ [message] }

def recordFailure (journal : ApplyJournal) (message : Message)
    (outcome : ConfigurationStepOutcome) : ApplyJournal :=
  let journal := journal.recordSteps message outcome
  { journal with
    failedOperations := journal.failedOperations + 1
    lines := journal.lines ++ [message] }

/-- An operation error also tells what became of the write. -/
def observeEffect (journal : ApplyJournal) (error : StandardError) : ApplyJournal :=
  match error.writeEffect with
  | none => journal
  | some effect =>
      { journal with
        stepEffect := effect
        reconciliationRequired := journal.reconciliationRequired || decide (effect ≠ .none)
        anyWriteConfirmed := journal.anyWriteConfirmed || decide (effect = .confirmed) }

def recordError (journal : ApplyJournal) (context : Message) (error : StandardError) :
    ApplyJournal :=
  (journal.observeEffect error).recordFailure (context.explained (.literal error.what)) .failed

def registrationObserved (journal : ApplyJournal) (disposition : VolumeRegistrationDisposition)
    (drive : Text) : ApplyJournal :=
  let written := decide (disposition = .created ∨ disposition = .confirmedAfterUncertainWrite)
  endOperation
    { journal with
      reconciliationRequired := true
      anyWriteConfirmed := journal.anyWriteConfirmed || written
      steps := journal.steps ++
        [⟨.literal drive, .succeeded, if written then .confirmed else .none,
          some ⟨.volumeRegistration, drive⟩⟩] }

def confirmed (journal : ApplyJournal) : ApplyJournal := { journal with stepEffect := .confirmed }

def requireReconciliation (journal : ApplyJournal) : ApplyJournal :=
  { journal with reconciliationRequired := true }

/-- The recorded steps; an operation of the plan without a step was skipped. -/
def stepsOf (journal : ApplyJournal) (plan : ConfigurationPlan) : List ConfigurationStepResult :=
  plan.operations.foldl
    (fun result operation =>
      if result.any fun step => step.operation == some operation then result
      else result ++ [⟨skippedMessage, .skipped, .none, some operation⟩])
    journal.steps

def satisfiesStagingCompletion (journal : ApplyJournal) (plan : ConfigurationPlan) : Bool :=
  plan.stagingCompletionAlternatives.isEmpty ||
    plan.stagingCompletionAlternatives.any fun operation =>
      journal.steps.any fun step =>
        step.operation == some operation && step.outcome == .succeeded

/-- The steps that a record adds have its outcome and the begun operations. -/
theorem mem_recordSteps {journal : ApplyJournal} {message : Message}
    {outcome : ConfigurationStepOutcome} {step : ConfigurationStepResult}
    (hstep : step ∈ (journal.recordSteps message outcome).steps) :
    step ∈ journal.steps ∨ step.outcome = outcome ∧
      ∀ operation, step.operation = some operation → operation ∈ journal.operations := by
  simp only [recordSteps, endOperation, List.mem_append] at hstep
  refine hstep.imp_right fun hnew => ?_
  split_ifs at hnew
  · rw [List.mem_singleton] at hnew
    subst hnew
    exact ⟨rfl, fun _ hoperation => absurd hoperation (by simp)⟩
  · obtain ⟨operation, hmem, rfl⟩ := List.mem_map.1 hnew
    exact ⟨rfl, fun other hother => Option.some.inj hother ▸ hmem⟩

theorem observeEffect_steps (journal : ApplyJournal) (error : StandardError) :
    (journal.observeEffect error).steps = journal.steps := by
  rw [observeEffect]
  split <;> rfl

theorem observeEffect_operations (journal : ApplyJournal) (error : StandardError) :
    (journal.observeEffect error).operations = journal.operations := by
  rw [observeEffect]
  split <;> rfl

end ApplyJournal

/-! ## Executing under a journal -/

/-- The journal and what the actions work on. -/
structure Execution (P : Type*) where
  journal : ApplyJournal
  provider : P

namespace Execution

variable {P : Type*}

def execute (failureContext : Message) (action : P → Except Thrown Unit × P)
    (execution : Execution P) : StepResult × Execution P :=
  let journal := { execution.journal with stepEffect := .none }
  match action execution.provider with
  | (.ok (), provider) =>
      (.confirmed, ⟨{ journal with
        stepEffect := .confirmed
        anyWriteConfirmed := true
        reconciliationRequired := true }, provider⟩)
  | (.error (.standard error), provider) =>
      (.failed, ⟨journal.recordError failureContext error, provider⟩)
  | (.error .other, provider) =>
      (.failed, ⟨journal.recordFailure
        (.append failureContext (.plain ": unknown error")) .failed, provider⟩)

def apply (messages : ApplyMessages) (action : P → Except Thrown Unit × P)
    (prerequisiteConfirmed : Bool) (execution : Execution P) : StepResult × Execution P :=
  if prerequisiteConfirmed then
    match execute messages.failure action execution with
    | (.confirmed, execution) =>
        (.confirmed, { execution with
          journal := execution.journal.recordSuccess messages.success })
    | (.failed, execution) => (.failed, execution)
  else
    (.failed, { execution with
      journal := execution.journal.recordFailure
        (messages.failure.explained ApplyJournal.skippedMessage) .skipped })

/-- Begins an operation of the plan and applies its action. -/
def applyOperation (kind : ConfigurationOperationKind) (target : Text) (messages : ApplyMessages)
    (action : P → Except Thrown Unit × P) (prerequisiteConfirmed : Bool)
    (execution : Execution P) : StepResult × Execution P :=
  apply messages action prerequisiteConfirmed
    { execution with journal := execution.journal.begin kind target }

/-- What a confirmed action has done. -/
theorem execute_confirmed {context : Message} {action : P → Except Thrown Unit × P}
    {execution : Execution P} (hconfirmed : (execution.execute context action).1 = .confirmed) :
    (action execution.provider).1 = .ok () ∧
      (execution.execute context action).2.provider = (action execution.provider).2 ∧
      (execution.execute context action).2.journal.operations =
        execution.journal.operations := by
  revert hconfirmed
  rw [execute]
  rcases action execution.provider with ⟨thrown | _, provider⟩
  · cases thrown <;> exact fun hconfirmed => absurd hconfirmed (by simp)
  · exact fun _ => ⟨rfl, rfl, rfl⟩

theorem apply_provider (messages : ApplyMessages) (action : P → Except Thrown Unit × P)
    (execution : Execution P) :
    (execution.apply messages action true).2.provider = (action execution.provider).2 := by
  rw [apply, if_pos rfl, execute]
  rcases action execution.provider with ⟨(_ | _) | _, provider⟩ <;> rfl

theorem apply_confirmed_iff (messages : ApplyMessages) (action : P → Except Thrown Unit × P)
    (execution : Execution P) :
    (execution.apply messages action true).1 = .confirmed ↔
      (action execution.provider).1 = .ok () := by
  rw [apply, if_pos rfl, execute]
  rcases action execution.provider with ⟨(_ | _) | _, provider⟩ <;> simp

/-- The steps an action adds stand for the begun operations. -/
theorem mem_apply_steps {messages : ApplyMessages} {action : P → Except Thrown Unit × P}
    {execution : Execution P} {step : ConfigurationStepResult}
    (hstep : step ∈ (execution.apply messages action true).2.journal.steps) :
    step ∈ execution.journal.steps ∨
      ∀ operation, step.operation = some operation → operation ∈ execution.journal.operations := by
  revert hstep
  rw [apply, if_pos rfl, execute]
  rcases action execution.provider with ⟨(error | _) | _, provider⟩
  · intro hstep
    have hrecorded := ApplyJournal.mem_recordSteps hstep
    rw [ApplyJournal.observeEffect_steps, ApplyJournal.observeEffect_operations] at hrecorded
    exact hrecorded.imp_right And.right
  · exact fun hstep => (ApplyJournal.mem_recordSteps hstep).imp_right And.right
  · exact fun hstep => (ApplyJournal.mem_recordSteps hstep).imp_right And.right

end Execution

end UwfManager
