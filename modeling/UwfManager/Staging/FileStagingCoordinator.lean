import UwfManager.Staging.FileStagingDraft
import UwfManager.Startup.ApplicationCommand

/-!
# The coordinator of staging batches

The coordinator merges commit requests into one running batch and lends the
batch to an external owner.  Signals and callbacks run while its functions are
active and may call it again, so the model keeps the calls in progress as a
stack and lets every action happen on top of any stack.
-/

namespace UwfManager

inductive FileStagingCommitFailureKind where
  | invalidPath
  | reparsePoint
  | pathInspectionFailed
  | fileTypeChanged
  | directoryTypeChanged
  | directoryEnumerationFailed
  | missingDriveLetter
  | volumeRoot
  | providerFailure
  | unknownFailure
  deriving DecidableEq, Repr

structure FileStagingCommitFailure where
  path : Text
  kind : FileStagingCommitFailureKind
  detail : Text
  deriving DecidableEq

structure FileStagingCommitResult where
  discoveredFiles : UInt64 := 0
  committedFiles : UInt64 := 0
  skippedFiles : UInt64 := 0
  skippedEntries : UInt64 := 0
  failures : List FileStagingCommitFailure := []
  deriving DecidableEq

structure FileStagingBatchResult where
  command : ApplicationCommandResult
  sourceEntries : Option (List FileStagingEntry) := none
  result : Option FileStagingCommitResult := none
  deriving DecidableEq

/-! ## Ownership -/

inductive Ownership where
  | idle
  | command
  | external
  deriving DecidableEq, Repr

inductive OwnershipEvent where
  | commandStarted
  | commandCompleted
  | commandHandedOff
  | externalReserved
  | externalCompleted
  | externalReleased
  deriving DecidableEq, Repr

def ownershipTransition : Ownership → OwnershipEvent → Option Ownership
  | .idle, .commandStarted => some .command
  | .idle, .externalReserved => some .external
  | .command, .commandCompleted => some .idle
  | .command, .commandHandedOff => some .external
  | .external, .externalCompleted => some .idle
  | .external, .externalReleased => some .idle
  | _, _ => none

/-- The members of the coordinator; callbacks and operations are numbered. -/
structure FileStagingCoordinator where
  ownership : Ownership := .idle
  suspended : Bool := false
  operation : Option ℕ := none
  completions : List ℕ := []
  externalCompletion : Bool := false

def FileStagingCoordinator.active (coordinator : FileStagingCoordinator) : Bool :=
  coordinator.ownership ≠ .idle

/-- A call out of the coordinator that has not returned, with what it goes on with:
the signal before the factory, the factory, `start`, the signals of a reservation and
of a release, and the signal or the callback before the remaining callbacks. -/
inductive Call where
  | announcing (operation : ℕ)
  | constructing (operation : ℕ)
  | starting (operation : ℕ)
  | reserving
  | releasing
  | delivering (result : FileStagingBatchResult) (waiting : List ℕ) (external : Bool)

/-- The coordinator and its callers.  `calls` has the innermost call first,
`running` the batches that were started and have not finished, and `leases`
counts the live leases in the hands of callers. -/
structure CoordinatorWorld where
  coordinator : FileStagingCoordinator := {}
  calls : List Call := []
  running : List ℕ := []
  leases : ℕ := 0
  nextOperation : ℕ := 0
  accepted : ℕ := 0
  notified : List (ℕ × FileStagingBatchResult) := []
  invalidTransitions : ℕ := 0

namespace CoordinatorWorld

/-- Changes the owner; `activeChanged` is a call, and without it `resume` runs at once. -/
def postOwnershipEvent (world : CoordinatorWorld) (event : OwnershipEvent) (call : Call)
    (resume : CoordinatorWorld → CoordinatorWorld) : CoordinatorWorld :=
  match ownershipTransition world.coordinator.ownership event with
  | none => { world with invalidTransitions := world.invalidTransitions + 1 }
  | some next =>
      let changed := { world with coordinator := { world.coordinator with ownership := next } }
      if changed.coordinator.active ≠ world.coordinator.active then
        { changed with calls := call :: changed.calls }
      else resume changed

def construct (operation : ℕ) (world : CoordinatorWorld) : CoordinatorWorld :=
  { world with calls := .constructing operation :: world.calls }

def startCommandBatch (world : CoordinatorWorld) : CoordinatorWorld :=
  if world.coordinator.suspended || world.coordinator.active ||
      world.coordinator.completions.isEmpty then world
  else
    { world with
      running := world.nextOperation :: world.running
      nextOperation := world.nextOperation + 1 }.postOwnershipEvent .commandStarted
        (.announcing world.nextOperation) (construct world.nextOperation)

/-- Runs the next callback; the last one receives the lease. -/
def deliver (result : FileStagingBatchResult) (waiting : List ℕ) (external : Bool)
    (world : CoordinatorWorld) : CoordinatorWorld :=
  match waiting with
  | waiter :: rest =>
      { world with
        notified := world.notified ++ [(waiter, result)]
        calls := .delivering result rest external :: world.calls }
  | [] =>
      if external then
        { world with leases := world.leases + 1, calls := .delivering result [] false :: world.calls }
      else world

def finish (result : FileStagingBatchResult) (world : CoordinatorWorld) : CoordinatorWorld :=
  let completions := world.coordinator.completions
  let external := world.coordinator.externalCompletion
  { world with
    coordinator := { world.coordinator with
      completions := [], operation := none, externalCompletion := false } }.postOwnershipEvent
    (if external then .commandHandedOff else .commandCompleted)
    (.delivering result completions external) (deliver result completions external)

/-- What the coordinator does once this call has returned. -/
def resume (world : CoordinatorWorld) : Call → CoordinatorWorld
  | .announcing operation => construct operation world
  | .constructing operation =>
      { world with
        coordinator := { world.coordinator with operation := some operation }
        calls := .starting operation :: world.calls }
  | .starting _ => world
  | .reserving => { world with leases := world.leases + 1 }
  | .releasing => startCommandBatch world
  | .delivering result waiting external => deliver result waiting external world

def completeExternalBatch (result : FileStagingBatchResult) (world : CoordinatorWorld) :
    CoordinatorWorld :=
  if world.coordinator.ownership ≠ .external then world
  else
    { world with coordinator := { world.coordinator with completions := [] } }.postOwnershipEvent
      .externalCompleted (.delivering result world.coordinator.completions false)
      (deliver result world.coordinator.completions false)

def releaseExternalBatch (world : CoordinatorWorld) : CoordinatorWorld :=
  if world.coordinator.ownership ≠ .external then world
  else world.postOwnershipEvent .externalReleased .releasing startCommandBatch

def requestCommit (callback : Bool) (world : CoordinatorWorld) : Except Text CoordinatorWorld :=
  if !callback then .error "file staging completion callback is required".toList
  else
    let queued := { world with
      coordinator := { world.coordinator with
        completions := world.coordinator.completions ++ [world.accepted] }
      accepted := world.accepted + 1 }
    if world.coordinator.ownership ≠ .idle then .ok queued else .ok queued.startCommandBatch

def setSuspended (suspended : Bool) (world : CoordinatorWorld) : CoordinatorWorld :=
  if world.coordinator.suspended = suspended then world
  else
    let changed := { world with
      coordinator := { world.coordinator with suspended := suspended } }
    if !suspended then changed.startCommandBatch else changed

def reserveExternalBatch (callback : Bool) (world : CoordinatorWorld) :
    Except Text CoordinatorWorld :=
  if !callback then .error "file staging external completion callback is required".toList
  else if world.coordinator.suspended then
    .error "file staging execution is suspended during configuration apply".toList
  else
    match world.coordinator.ownership with
    | .external => .error "a file staging external batch already owns execution".toList
    | .command =>
        if world.coordinator.externalCompletion then
          .error "a file staging external batch is already waiting for ownership".toList
        else
          .ok { world with coordinator := { world.coordinator with externalCompletion := true } }
    | .idle =>
        .ok (world.postOwnershipEvent .externalReserved .reserving
          fun changed => { changed with leases := changed.leases + 1 })

/-! ## The callers -/

/-- What happens next, at any depth of calls.  A start fails where the factory or
`start` is the innermost call. -/
inductive Action where
  | requestCommit (callback : Bool)
  | setSuspended (suspended : Bool)
  | reserveExternalBatch (callback : Bool)
  | startFails (detail : Text)
  | operationCompletes (operation : ℕ) (result : FileStagingBatchResult)
  | leaseCompletes (result : FileStagingBatchResult)
  | leaseReleased
  | returns

def startupFailure (detail : Text) : FileStagingBatchResult :=
  { command := .infrastructureFailure detail }

/-- The operation of a call before `start`: it cannot complete yet. -/
def launching : Call → Option ℕ
  | .announcing operation => some operation
  | .constructing operation => some operation
  | _ => none

/-- An operation completes once and not inside its factory, and its `start` does
not throw after it has completed. -/
def step (world : CoordinatorWorld) : Action → CoordinatorWorld
  | .requestCommit callback => (world.requestCommit callback).toOption.getD world
  | .setSuspended suspended => world.setSuspended suspended
  | .reserveExternalBatch callback => (world.reserveExternalBatch callback).toOption.getD world
  | .startFails detail =>
      match world.calls with
      | .constructing operation :: rest =>
          { world with calls := rest, running := world.running.erase operation }.finish
            (startupFailure detail)
      | .starting operation :: rest =>
          if operation ∈ world.running then
            { world with calls := rest, running := world.running.erase operation }.finish
              (startupFailure detail)
          else world
      | _ => world
  | .operationCompletes operation result =>
      if operation ∈ world.running ∧ operation ∉ world.calls.filterMap launching then
        { world with running := world.running.erase operation }.finish result
      else world
  | .leaseCompletes result =>
      if world.leases = 0 then world
      else { world with leases := world.leases - 1 }.completeExternalBatch result
  | .leaseReleased =>
      if world.leases = 0 then world
      else { world with leases := world.leases - 1 }.releaseExternalBatch
  | .returns =>
      match world.calls with
      | [] => world
      | call :: rest => { world with calls := rest }.resume call

/-! ## What every state keeps -/

/-- The operation of a call, up to the return of its `start`. -/
def operation? : Call → Option ℕ
  | .announcing operation => some operation
  | .constructing operation => some operation
  | .starting operation => some operation
  | _ => none

/-- The callbacks this call has still to run. -/
def undelivered : Call → List ℕ
  | .delivering _ waiting _ => waiting
  | _ => []

/-- The lease that this call has still to hand out. -/
def heldLeases : Call → ℕ
  | .reserving => 1
  | .delivering _ _ external => if external then 1 else 0
  | _ => 0

def aliveLeases (world : CoordinatorWorld) : ℕ :=
  world.leases + (world.calls.map heldLeases).sum

/-- The accepted requests: queued, about to be answered, answered. -/
def tickets (world : CoordinatorWorld) : List ℕ :=
  world.coordinator.completions ++ (world.calls.flatMap undelivered ++ world.notified.map Prod.fst)

structure Balanced (world : CoordinatorWorld) : Prop where
  valid : world.invalidTransitions = 0
  commands : world.running.length = if world.coordinator.ownership = .command then 1 else 0
  externals : world.aliveLeases = if world.coordinator.ownership = .external then 1 else 0
  reserved : world.coordinator.externalCompletion = true → world.coordinator.ownership = .command
  launched : ∀ operation ∈ world.calls.filterMap launching, operation ∈ world.running
  distinct : (world.calls.filterMap operation?).Nodup
  fresh : ∀ operation ∈ world.calls.filterMap operation?, operation < world.nextOperation
  accounted : world.tickets.Perm (List.range world.accepted)

/-- Waiters stay queued without an owner only while a release is being announced. -/
structure Consistent (world : CoordinatorWorld) : Prop extends Balanced world where
  started : world.coordinator.ownership = .idle → world.coordinator.suspended = false →
    world.coordinator.completions ≠ [] → .releasing ∈ world.calls

theorem consistent_initial : Consistent {} where
  valid := rfl
  commands := rfl
  externals := rfl
  reserved := by simp
  launched := by simp
  distinct := List.nodup_nil
  fresh := by simp
  accounted := List.Perm.refl _
  started := by simp

variable {world : CoordinatorWorld}

/-- A running operation is the only one. -/
theorem Balanced.running_eq (hworld : Balanced world) {operation : ℕ}
    (hrunning : operation ∈ world.running) :
    world.running = [operation] ∧ world.coordinator.ownership = .command := by
  have hcommands := hworld.commands
  by_cases howner : world.coordinator.ownership = .command
  · rw [if_pos howner] at hcommands
    obtain ⟨only, honly⟩ := List.length_eq_one_iff.1 hcommands
    rw [honly, List.mem_singleton] at hrunning
    rw [honly, hrunning]
    exact ⟨rfl, howner⟩
  · rw [if_neg howner, List.length_eq_zero_iff] at hcommands
    rw [hcommands] at hrunning
    cases hrunning

theorem Balanced.launching_eq_nil (hworld : Balanced world)
    (hnone : ∀ operation ∈ world.running, operation ∉ world.calls.filterMap launching) :
    world.calls.filterMap launching = [] := by
  apply List.eq_nil_iff_forall_not_mem.2
  intro operation hoperation
  exact hnone operation (hworld.launched operation hoperation) hoperation

/-- A live lease belongs to an external owner. -/
theorem Balanced.external_of_lease (hworld : Balanced world) (hlease : world.aliveLeases ≠ 0) :
    world.coordinator.ownership = .external := by
  have hexternals := hworld.externals
  by_contra howner
  rw [if_neg howner] at hexternals
  exact hlease hexternals

/-! ## The operations keep it -/

theorem startCommandBatch_consistent (hworld : Balanced world) :
    Consistent world.startCommandBatch := by
  rw [startCommandBatch]
  by_cases hwait : (world.coordinator.suspended || world.coordinator.active ||
      world.coordinator.completions.isEmpty) = true
  · rw [if_pos hwait]
    refine ⟨hworld, ?_⟩
    intro howner hsuspended hqueued
    simp [FileStagingCoordinator.active, howner, hsuspended, hqueued] at hwait
  · rw [if_neg hwait]
    have howner : world.coordinator.ownership = .idle := by
      simp [FileStagingCoordinator.active] at hwait
      exact hwait.1.2
    have hcommands := hworld.commands
    have hexternals := hworld.externals
    rw [howner, if_neg (by decide)] at hcommands hexternals
    have hrunning := List.length_eq_zero_iff.1 hcommands
    have hlaunching : world.calls.filterMap launching = [] := by
      apply hworld.launching_eq_nil
      rw [hrunning]
      simp
    have hpost : ({ world with
        running := world.nextOperation :: world.running
        nextOperation := world.nextOperation + 1 } : CoordinatorWorld).postOwnershipEvent
          .commandStarted (.announcing world.nextOperation) (construct world.nextOperation) =
        { world with
          coordinator := { world.coordinator with ownership := .command }
          calls := .announcing world.nextOperation :: world.calls
          running := world.nextOperation :: world.running
          nextOperation := world.nextOperation + 1 } := by
      simp [postOwnershipEvent, howner, ownershipTransition, FileStagingCoordinator.active]
    rw [hpost]
    refine ⟨⟨hworld.valid, ?_, ?_, fun _ => rfl, ?_, ?_, ?_, hworld.accounted⟩, ?_⟩
    · rw [hrunning]
      rfl
    · simpa [aliveLeases, heldLeases] using hexternals
    · simp [launching, hlaunching]
    · change (world.nextOperation :: world.calls.filterMap operation?).Nodup
      rw [List.nodup_cons]
      exact ⟨fun hold => absurd (hworld.fresh _ hold) (Nat.lt_irrefl _), hworld.distinct⟩
    · intro operation hoperation
      change operation ∈ world.nextOperation :: world.calls.filterMap operation? at hoperation
      rcases List.mem_cons.1 hoperation with rfl | hold
      · exact Nat.lt_succ_self _
      · exact Nat.lt_succ_of_lt (hworld.fresh operation hold)
    · intro hidle
      cases hidle

/-- Where a delivery would go on, it may go on now. -/
theorem deliver_consistent {result : FileStagingBatchResult} {waiting : List ℕ} {external : Bool}
    (hworld : Consistent { world with calls := .delivering result waiting external :: world.calls }) :
    Consistent (world.deliver result waiting external) := by
  cases waiting with
  | cons waiter rest =>
      refine ⟨⟨hworld.valid, hworld.commands, hworld.externals, hworld.reserved, hworld.launched,
        hworld.distinct, hworld.fresh, ?_⟩, ?_⟩
      · refine List.Perm.trans ?_ hworld.accounted
        simp only [deliver, tickets, List.flatMap_cons, undelivered, List.map_append, List.map_cons,
          List.map_nil]
        apply List.Perm.append_left
        rw [← List.append_assoc, List.append_assoc (waiter :: rest)]
        refine List.perm_append_comm.trans ?_
        simp
      · intro howner hsuspended hqueued
        have hreleasing := hworld.started howner hsuspended hqueued
        simpa [deliver] using hreleasing
  | nil =>
      cases external with
      | false =>
          refine ⟨⟨hworld.valid, hworld.commands, ?_, hworld.reserved, hworld.launched,
            hworld.distinct, hworld.fresh, hworld.accounted⟩, ?_⟩
          · simpa [aliveLeases, heldLeases, deliver] using hworld.externals
          · intro howner hsuspended hqueued
            have hreleasing := hworld.started howner hsuspended hqueued
            simpa [deliver] using hreleasing
      | true =>
          refine ⟨⟨hworld.valid, hworld.commands, ?_, hworld.reserved, hworld.launched,
            hworld.distinct, hworld.fresh, hworld.accounted⟩, ?_⟩
          · have hexternals := hworld.externals
            simp [aliveLeases, heldLeases, deliver] at hexternals ⊢
            omega
          · intro howner hsuspended hqueued
            have hreleasing := hworld.started howner hsuspended hqueued
            simpa [deliver] using hreleasing

/-- What `finish` needs: the batch has just been taken from the running ones. -/
structure Finishing (world : CoordinatorWorld) : Prop where
  valid : world.invalidTransitions = 0
  owner : world.coordinator.ownership = .command
  running : world.running = []
  leases : world.aliveLeases = 0
  launched : ∀ operation ∈ world.calls.filterMap launching, operation ∈ world.running
  distinct : (world.calls.filterMap operation?).Nodup
  fresh : ∀ operation ∈ world.calls.filterMap operation?, operation < world.nextOperation
  accounted : world.tickets.Perm (List.range world.accepted)

theorem finish_consistent (hworld : Finishing world) (result : FileStagingBatchResult) :
    Consistent (world.finish result) := by
  have hleases := hworld.leases
  rw [aliveLeases] at hleases
  -- the callbacks of the batch move from the queue into the delivery
  have hmoved : (world.coordinator.completions ++
      (world.calls.flatMap undelivered ++ world.notified.map Prod.fst)).Perm
        (List.range world.accepted) := hworld.accounted
  cases hexternal : world.coordinator.externalCompletion with
  | false =>
      have hfinish : world.finish result =
          { world with
            coordinator := { world.coordinator with
              ownership := .idle, completions := [], operation := none, externalCompletion := false }
            calls := .delivering result world.coordinator.completions false :: world.calls } := by
        simp [finish, postOwnershipEvent, hworld.owner, hexternal, ownershipTransition,
          FileStagingCoordinator.active]
      rw [hfinish]
      refine ⟨⟨hworld.valid, ?_, ?_, ?_, hworld.launched, hworld.distinct, hworld.fresh, ?_⟩, ?_⟩
      · exact congrArg List.length hworld.running
      · simpa [aliveLeases, heldLeases] using hleases
      · intro hreserved
        cases hreserved
      · simpa [tickets, undelivered] using hmoved
      · intro _ _ hqueued
        exact absurd rfl hqueued
  | true =>
      have hfinish : world.finish result =
          deliver result world.coordinator.completions true { world with
            coordinator := { world.coordinator with
              ownership := .external, completions := [], operation := none
              externalCompletion := false } } := by
        simp [finish, postOwnershipEvent, hworld.owner, hexternal, ownershipTransition,
          FileStagingCoordinator.active]
      rw [hfinish]
      apply deliver_consistent
      refine ⟨⟨hworld.valid, ?_, ?_, ?_, hworld.launched, hworld.distinct, hworld.fresh, ?_⟩, ?_⟩
      · exact congrArg List.length hworld.running
      · simp [aliveLeases, heldLeases]
        omega
      · intro hreserved
        cases hreserved
      · simpa [tickets, undelivered] using hmoved
      · intro hidle
        cases hidle

theorem completeExternalBatch_consistent (hworld : Balanced world)
    (hlease : world.leases ≠ 0) (result : FileStagingBatchResult) :
    Consistent
      (completeExternalBatch result { world with leases := world.leases - 1 }) := by
  have howner := hworld.external_of_lease (by rw [aliveLeases]; omega)
  have hcommands := hworld.commands
  have hexternals := hworld.externals
  rw [howner, if_neg (by decide)] at hcommands
  rw [howner, if_pos rfl, aliveLeases] at hexternals
  have hcomplete : completeExternalBatch result { world with leases := world.leases - 1 } =
      { world with
        leases := world.leases - 1
        coordinator := { world.coordinator with ownership := .idle, completions := [] }
        calls := .delivering result world.coordinator.completions false :: world.calls } := by
    simp [completeExternalBatch, postOwnershipEvent, howner, ownershipTransition,
      FileStagingCoordinator.active]
  rw [hcomplete]
  refine ⟨⟨hworld.valid, hcommands, ?_, ?_, hworld.launched, hworld.distinct, hworld.fresh, ?_⟩, ?_⟩
  · simp [aliveLeases, heldLeases]
    omega
  · intro hreserved
    have hcommand := hworld.reserved hreserved
    rw [howner] at hcommand
    cases hcommand
  · simpa [tickets, undelivered] using hworld.accounted
  · intro _ _ hqueued
    exact absurd rfl hqueued

theorem releaseExternalBatch_consistent (hworld : Balanced world) (hlease : world.leases ≠ 0) :
    Consistent (releaseExternalBatch { world with leases := world.leases - 1 }) := by
  have howner := hworld.external_of_lease (by rw [aliveLeases]; omega)
  have hcommands := hworld.commands
  have hexternals := hworld.externals
  rw [howner, if_neg (by decide)] at hcommands
  rw [howner, if_pos rfl, aliveLeases] at hexternals
  have hrelease : releaseExternalBatch { world with leases := world.leases - 1 } =
      { world with
        leases := world.leases - 1
        coordinator := { world.coordinator with ownership := .idle }
        calls := .releasing :: world.calls } := by
    simp [releaseExternalBatch, postOwnershipEvent, howner, ownershipTransition,
      FileStagingCoordinator.active]
  rw [hrelease]
  refine ⟨⟨hworld.valid, hcommands, ?_, ?_, hworld.launched, hworld.distinct, hworld.fresh, ?_⟩, ?_⟩
  · simp [aliveLeases, heldLeases]
    omega
  · intro hreserved
    have hcommand := hworld.reserved hreserved
    rw [howner] at hcommand
    cases hcommand
  · simpa [tickets, undelivered] using hworld.accounted
  · intro _ _ _
    exact List.mem_cons_self

theorem requestCommit_consistent (hworld : Consistent world) {callback : Bool}
    {after : CoordinatorWorld} (hafter : world.requestCommit callback = .ok after) :
    Consistent after := by
  have hqueued : ∀ completions, completions = world.coordinator.completions ++ [world.accepted] →
      Balanced { world with
        coordinator := { world.coordinator with completions := completions }
        accepted := world.accepted + 1 } := by
    rintro _ rfl
    refine ⟨hworld.valid, hworld.commands, hworld.externals, hworld.reserved, hworld.launched,
      hworld.distinct, hworld.fresh, ?_⟩
    rw [List.range_succ]
    refine List.Perm.trans ?_ (hworld.accounted.append_right [world.accepted])
    simp only [tickets]
    rw [List.append_assoc, List.append_assoc]
    exact List.Perm.append_left _ List.perm_append_comm
  rw [requestCommit] at hafter
  split_ifs at hafter with hcallback howner
  · cases hafter
    refine ⟨hqueued _ rfl, ?_⟩
    intro hidle
    exact absurd hidle howner
  · cases hafter
    exact startCommandBatch_consistent (hqueued _ rfl)

theorem setSuspended_consistent (hworld : Consistent world) (suspended : Bool) :
    Consistent (world.setSuspended suspended) := by
  have hbalanced : Balanced { world with
      coordinator := { world.coordinator with suspended := suspended } } :=
    ⟨hworld.valid, hworld.commands, hworld.externals, hworld.reserved, hworld.launched,
      hworld.distinct, hworld.fresh, hworld.accounted⟩
  rw [setSuspended]
  split_ifs with hsame hresumed
  · exact hworld
  · exact startCommandBatch_consistent hbalanced
  · refine ⟨hbalanced, ?_⟩
    intro _ hrunning
    simp at hresumed
    rw [hresumed] at hrunning
    cases hrunning

theorem reserveExternalBatch_consistent (hworld : Consistent world) {callback : Bool}
    {after : CoordinatorWorld} (hafter : world.reserveExternalBatch callback = .ok after) :
    Consistent after := by
  rw [reserveExternalBatch] at hafter
  cases howner : world.coordinator.ownership with
  | external =>
      rw [howner] at hafter
      dsimp only at hafter
      split_ifs at hafter
  | command =>
      rw [howner] at hafter
      dsimp only at hafter
      split_ifs at hafter with hcallback hsuspended hwaiting
      cases hafter
      refine ⟨⟨hworld.valid, hworld.commands, hworld.externals, fun _ => howner, hworld.launched,
        hworld.distinct, hworld.fresh, hworld.accounted⟩, ?_⟩
      intro hidle
      rw [howner] at hidle
      cases hidle
  | idle =>
      rw [howner] at hafter
      dsimp only at hafter
      split_ifs at hafter with hcallback hsuspended
      have hcommands := hworld.commands
      have hexternals := hworld.externals
      rw [howner, if_neg (by decide)] at hcommands hexternals
      rw [aliveLeases] at hexternals
      have hreserve : after = { world with
          coordinator := { world.coordinator with ownership := .external }
          calls := .reserving :: world.calls } := by
        rw [← Except.ok.inj hafter]
        simp [postOwnershipEvent, howner, ownershipTransition, FileStagingCoordinator.active]
      rw [hreserve]
      refine ⟨⟨hworld.valid, hcommands, ?_, ?_, hworld.launched, hworld.distinct, hworld.fresh,
        hworld.accounted⟩, ?_⟩
      · simp [aliveLeases, heldLeases]
        omega
      · intro hreserved
        have hcommand := hworld.reserved hreserved
        rw [howner] at hcommand
        cases hcommand
      · intro hidle
        cases hidle

/-- A call returns: what the coordinator goes on with keeps the balance. -/
theorem resume_consistent {call : Call}
    (hworld : Consistent { world with calls := call :: world.calls }) :
    Consistent (world.resume call) := by
  have hstarted : call ≠ .releasing → world.coordinator.ownership = .idle →
      world.coordinator.suspended = false → world.coordinator.completions ≠ [] →
      .releasing ∈ world.calls := by
    intro hcall howner hsuspended hqueued
    rcases List.mem_cons.1 (hworld.started howner hsuspended hqueued) with heq | hreleasing
    · exact absurd heq.symm hcall
    · exact hreleasing
  cases call with
  | announcing operation =>
      refine ⟨⟨hworld.valid, hworld.commands, hworld.externals, hworld.reserved, hworld.launched,
        hworld.distinct, hworld.fresh, hworld.accounted⟩, ?_⟩
      intro howner hsuspended hqueued
      exact List.mem_cons_of_mem _ (hstarted (by simp) howner hsuspended hqueued)
  | constructing operation =>
      refine ⟨⟨hworld.valid, hworld.commands, hworld.externals, hworld.reserved, ?_,
        hworld.distinct, hworld.fresh, hworld.accounted⟩, ?_⟩
      · intro other hother
        exact hworld.launched other (List.mem_cons_of_mem _ hother)
      · intro howner hsuspended hqueued
        exact List.mem_cons_of_mem _ (hstarted (by simp) howner hsuspended hqueued)
  | starting operation =>
      refine ⟨⟨hworld.valid, hworld.commands, ?_, hworld.reserved, hworld.launched,
        (List.nodup_cons.1 hworld.distinct).2, ?_, hworld.accounted⟩, ?_⟩
      · have hexternals := hworld.externals
        have hsilent : heldLeases (.starting operation) = 0 := rfl
        rw [aliveLeases, List.map_cons, List.sum_cons, hsilent, Nat.zero_add] at hexternals
        exact hexternals
      · intro other hother
        exact hworld.fresh other (List.mem_cons_of_mem _ hother)
      · exact hstarted (by simp)
  | reserving =>
      refine ⟨⟨hworld.valid, hworld.commands, ?_, hworld.reserved, hworld.launched,
        hworld.distinct, hworld.fresh, hworld.accounted⟩, ?_⟩
      · have hexternals : world.leases + (1 + (world.calls.map heldLeases).sum) =
            if world.coordinator.ownership = .external then 1 else 0 := hworld.externals
        change world.leases + 1 + (world.calls.map heldLeases).sum =
          if world.coordinator.ownership = .external then 1 else 0
        rw [← hexternals, Nat.add_assoc]
      · exact hstarted (by simp)
  | releasing =>
      apply startCommandBatch_consistent
      refine ⟨hworld.valid, hworld.commands, ?_, hworld.reserved, hworld.launched, hworld.distinct,
        hworld.fresh, hworld.accounted⟩
      simpa [aliveLeases, heldLeases] using hworld.externals
  | delivering result waiting external => exact deliver_consistent hworld

/-- The batch of an operation ends, by its completion or by a failed start. -/
theorem finishing_of_running (hworld : Balanced world) {operation : ℕ}
    (hrunning : operation ∈ world.running) {calls : List Call}
    (hsuffix : calls <:+ world.calls)
    (hnone : operation ∉ calls.filterMap launching)
    (hleases : (calls.map heldLeases).sum = (world.calls.map heldLeases).sum)
    (hundelivered : calls.flatMap undelivered = world.calls.flatMap undelivered) :
    Finishing { world with calls := calls, running := world.running.erase operation } := by
  obtain ⟨hall, howner⟩ := hworld.running_eq hrunning
  have hexternals := hworld.externals
  rw [howner, if_neg (by decide)] at hexternals
  have hsublist : (calls.filterMap operation?).Sublist (world.calls.filterMap operation?) :=
    hsuffix.sublist.filterMap operation?
  refine ⟨hworld.valid, howner, ?_, ?_, ?_, hworld.distinct.sublist hsublist, ?_, ?_⟩
  · simp [hall]
  · rw [aliveLeases] at hexternals ⊢
    dsimp only
    rw [hleases, hexternals]
  · intro other hother
    have hold := hworld.launched other ((hsuffix.sublist.filterMap launching).subset hother)
    rw [hall, List.mem_singleton] at hold
    rw [hold] at hother
    exact absurd hother hnone
  · intro other hother
    exact hworld.fresh other (hsublist.subset hother)
  · rw [tickets]
    dsimp only
    rw [hundelivered]
    exact hworld.accounted

theorem launching_subset (calls : List Call) {operation : ℕ}
    (hlaunching : operation ∈ calls.filterMap launching) :
    operation ∈ calls.filterMap operation? := by
  obtain ⟨call, hcall, hoperation⟩ := List.mem_filterMap.1 hlaunching
  apply List.mem_filterMap.2
  refine ⟨call, hcall, ?_⟩
  cases call <;> first | exact hoperation | cases hoperation

/-- No call below the one that starts an operation is about to start it. -/
theorem not_launching_below (hworld : Balanced world) {call : Call} {rest : List Call}
    {operation : ℕ} (hcalls : world.calls = call :: rest) (hcall : operation? call = some operation) :
    operation ∉ rest.filterMap launching := by
  have hdistinct := hworld.distinct
  rw [hcalls, List.filterMap_cons_some hcall, List.nodup_cons] at hdistinct
  exact fun hbelow => hdistinct.1 (launching_subset rest hbelow)

theorem finishing_of_innermost (hworld : Balanced world) {call : Call} {rest : List Call}
    {operation : ℕ} (hcalls : world.calls = call :: rest) (hcall : operation? call = some operation)
    (hrunning : operation ∈ world.running) :
    Finishing { world with calls := rest, running := world.running.erase operation } := by
  have hsilent : heldLeases call = 0 ∧ undelivered call = [] := by
    cases call <;> first | exact ⟨rfl, rfl⟩ | cases hcall
  apply finishing_of_running hworld hrunning
  · rw [hcalls]
    exact List.suffix_cons call rest
  · exact not_launching_below hworld hcalls hcall
  · rw [hcalls, List.map_cons, List.sum_cons, hsilent.1, Nat.zero_add]
  · rw [hcalls, List.flatMap_cons, hsilent.2, List.nil_append]

theorem startFails_consistent (hworld : Consistent world) (detail : Text) :
    Consistent (world.step (.startFails detail)) := by
  rw [step]
  cases hcalls : world.calls with
  | nil => exact hworld
  | cons call rest =>
      cases call with
      | constructing operation =>
          have hrunning : operation ∈ world.running := by
            apply hworld.launched
            rw [hcalls]
            exact List.mem_cons_self
          apply finish_consistent
          exact finishing_of_innermost hworld.toBalanced hcalls rfl hrunning
      | starting operation =>
          dsimp only
          split_ifs with hrunning
          · apply finish_consistent
            exact finishing_of_innermost hworld.toBalanced hcalls rfl hrunning
          · exact hworld
      | announcing operation => exact hworld
      | reserving => exact hworld
      | releasing => exact hworld
      | delivering result waiting external => exact hworld

theorem step_consistent (hworld : Consistent world) (action : Action) :
    Consistent (world.step action) := by
  cases action with
  | requestCommit callback =>
      rw [step]
      cases hafter : world.requestCommit callback with
      | error thrown => exact hworld
      | ok after => exact requestCommit_consistent hworld hafter
  | setSuspended suspended => exact setSuspended_consistent hworld suspended
  | reserveExternalBatch callback =>
      rw [step]
      cases hafter : world.reserveExternalBatch callback with
      | error thrown => exact hworld
      | ok after => exact reserveExternalBatch_consistent hworld hafter
  | startFails detail => exact startFails_consistent hworld detail
  | operationCompletes operation result =>
      rw [step]
      split_ifs with hcompletes
      · apply finish_consistent
        exact finishing_of_running hworld.toBalanced hcompletes.1 (List.suffix_refl _)
          hcompletes.2 rfl rfl
      · exact hworld
  | leaseCompletes result =>
      rw [step]
      split_ifs with hlease
      · exact hworld
      · exact completeExternalBatch_consistent hworld.toBalanced hlease result
  | leaseReleased =>
      rw [step]
      split_ifs with hlease
      · exact hworld
      · exact releaseExternalBatch_consistent hworld.toBalanced hlease
  | returns =>
      rw [step]
      cases hcalls : world.calls with
      | nil => exact hworld
      | cons call rest =>
          apply resume_consistent
          have hsame : ({ world with calls := call :: rest } : CoordinatorWorld) = world := by
            rw [← hcalls]
          dsimp only
          rwa [hsame]

/-! ## Runs -/

theorem run_consistent (actions : List Action) : Consistent (actions.foldl step {}) :=
  List.foldlRecOn actions step consistent_initial fun _ hworld action _ =>
    step_consistent hworld action

/-! ## The accepted requests of a run -/

def accepts : Action → Bool
  | .requestCommit callback => callback
  | _ => false

theorem accepted_postOwnershipEvent (event : OwnershipEvent) (call : Call)
    {resume : CoordinatorWorld → CoordinatorWorld}
    (hresume : ∀ changed, (resume changed).accepted = changed.accepted) :
    (world.postOwnershipEvent event call resume).accepted = world.accepted := by
  rw [postOwnershipEvent]
  split
  · rfl
  · dsimp only
    split_ifs
    · rfl
    · exact hresume _

theorem accepted_startCommandBatch : world.startCommandBatch.accepted = world.accepted := by
  rw [startCommandBatch]
  split_ifs
  · rfl
  · exact accepted_postOwnershipEvent _ _ fun _ => rfl

theorem accepted_deliver (result : FileStagingBatchResult) (waiting : List ℕ) (external : Bool) :
    (deliver result waiting external world).accepted = world.accepted := by
  cases waiting with
  | nil =>
      rw [deliver]
      split_ifs <;> rfl
  | cons waiter rest => rfl

theorem accepted_finish (result : FileStagingBatchResult) :
    (world.finish result).accepted = world.accepted :=
  accepted_postOwnershipEvent _ _ fun _ => accepted_deliver result _ _

theorem accepted_resume (call : Call) : (world.resume call).accepted = world.accepted := by
  cases call with
  | releasing => exact accepted_startCommandBatch
  | delivering result waiting external => exact accepted_deliver result waiting external
  | _ => rfl

theorem accepted_completeExternalBatch (result : FileStagingBatchResult) :
    (world.completeExternalBatch result).accepted = world.accepted := by
  rw [completeExternalBatch]
  split_ifs
  · rfl
  · exact accepted_postOwnershipEvent _ _ fun _ => accepted_deliver result _ _

theorem accepted_releaseExternalBatch : world.releaseExternalBatch.accepted = world.accepted := by
  rw [releaseExternalBatch]
  split_ifs
  · rfl
  · exact accepted_postOwnershipEvent _ _ fun _ => accepted_startCommandBatch

theorem accepted_setSuspended (suspended : Bool) :
    (world.setSuspended suspended).accepted = world.accepted := by
  rw [setSuspended]
  split_ifs
  · rfl
  · exact accepted_startCommandBatch
  · rfl

theorem accepted_requestCommit {after : CoordinatorWorld}
    (hafter : world.requestCommit true = .ok after) : after.accepted = world.accepted + 1 := by
  rw [requestCommit, if_neg (by decide)] at hafter
  dsimp only at hafter
  split_ifs at hafter
  · cases hafter
    rfl
  · cases hafter
    exact accepted_startCommandBatch

theorem accepted_reserveExternalBatch {callback : Bool} {after : CoordinatorWorld}
    (hafter : world.reserveExternalBatch callback = .ok after) :
    after.accepted = world.accepted := by
  rw [reserveExternalBatch] at hafter
  cases howner : world.coordinator.ownership with
  | external =>
      rw [howner] at hafter
      dsimp only at hafter
      split_ifs at hafter
  | command =>
      rw [howner] at hafter
      dsimp only at hafter
      split_ifs at hafter
      cases hafter
      rfl
  | idle =>
      rw [howner] at hafter
      dsimp only at hafter
      split_ifs at hafter
      cases hafter
      exact accepted_postOwnershipEvent _ _ fun _ => rfl

theorem accepted_startFails (detail : Text) :
    (world.step (.startFails detail)).accepted = world.accepted := by
  rw [step]
  split
  · exact accepted_finish _
  · split_ifs
    · exact accepted_finish _
    · rfl
  · rfl

/-- A request is accepted when it brings a callback, and nothing else is a request. -/
theorem accepted_step (action : Action) :
    (world.step action).accepted = world.accepted + if accepts action then 1 else 0 := by
  cases action with
  | requestCommit callback =>
      cases callback with
      | false => rfl
      | true =>
          rw [step]
          cases hafter : world.requestCommit true with
          | error thrown =>
              rw [requestCommit, if_neg (by decide)] at hafter
              dsimp only at hafter
              split_ifs at hafter
          | ok after => exact accepted_requestCommit hafter
  | setSuspended suspended => exact accepted_setSuspended suspended
  | reserveExternalBatch callback =>
      rw [step]
      cases hafter : world.reserveExternalBatch callback with
      | error thrown => rfl
      | ok after => exact accepted_reserveExternalBatch hafter
  | startFails detail => exact accepted_startFails detail
  | operationCompletes operation result =>
      change _ = world.accepted
      rw [step]
      split_ifs
      · exact accepted_finish result
      · rfl
  | leaseCompletes result =>
      change _ = world.accepted
      rw [step]
      split_ifs
      · rfl
      · exact accepted_completeExternalBatch result
  | leaseReleased =>
      change _ = world.accepted
      rw [step]
      split_ifs
      · rfl
      · exact accepted_releaseExternalBatch
  | returns =>
      rw [step]
      cases world.calls with
      | nil => rfl
      | cons call rest => exact accepted_resume call

theorem accepted_run (actions : List Action) (world : CoordinatorWorld) :
    (actions.foldl step world).accepted = world.accepted + actions.countP accepts := by
  induction actions generalizing world with
  | nil => rfl
  | cons action rest ih =>
      rw [List.foldl_cons, ih, accepted_step, List.countP_cons, Nat.add_right_comm, Nat.add_assoc]

/-- What callers rely on; a request is answered under the number of requests accepted
before it.  While a release is being announced its waiters are still queued; the
coordinator starts their batch when that call returns. -/
structure Coordinated (actions : List Action) (world : CoordinatorWorld) : Prop where
  command : world.coordinator.ownership = .command ↔ world.running.length = 1
  external : world.coordinator.ownership = .external ↔ world.aliveLeases = 1
  exclusive : world.running.length + world.aliveLeases ≤ 1
  valid : world.invalidTransitions = 0
  once : (world.coordinator.completions ++
    (world.calls.flatMap undelivered ++ world.notified.map Prod.fst)).Perm
      (List.range (actions.countP accepts))
  started : world.coordinator.active = false → world.coordinator.suspended = false →
    world.coordinator.completions = [] ∨ .releasing ∈ world.calls
  settled : world.calls = [] → world.coordinator.active = false →
    world.coordinator.suspended = false →
    (world.notified.map Prod.fst).Perm (List.range (actions.countP accepts))

theorem Consistent.coordinated (hworld : Consistent world) {actions : List Action}
    (haccepted : world.accepted = actions.countP accepts) : Coordinated actions world := by
  have hcommands := hworld.commands
  have hexternals := hworld.externals
  have haccounted := hworld.accounted
  rw [haccepted] at haccounted
  have hidle : world.coordinator.active = false → world.coordinator.ownership = .idle := by
    intro hactive
    simpa [FileStagingCoordinator.active] using hactive
  have hstarted : world.coordinator.active = false → world.coordinator.suspended = false →
      world.coordinator.completions = [] ∨ .releasing ∈ world.calls := by
    intro hactive hsuspended
    by_cases hqueued : world.coordinator.completions = []
    · exact Or.inl hqueued
    · exact Or.inr (hworld.started (hidle hactive) hsuspended hqueued)
  refine ⟨?_, ?_, ?_, hworld.valid, haccounted, hstarted, ?_⟩
  · rw [hcommands]
    split_ifs with howner <;> simp [howner]
  · rw [hexternals]
    split_ifs with howner <;> simp [howner]
  · rw [hcommands, hexternals]
    cases world.coordinator.ownership <;> decide
  · intro hcalls hactive hsuspended
    have hqueued : world.coordinator.completions = [] := by
      rcases hstarted hactive hsuspended with hnone | hreleasing
      · exact hnone
      · rw [hcalls] at hreleasing
        cases hreleasing
    rw [tickets, hqueued, hcalls] at haccounted
    exact haccounted

/-- Whatever is called in which order and at which depth. -/
theorem coordinated_run (actions : List Action) :
    Coordinated actions (actions.foldl step {}) :=
  (run_consistent actions).coordinated (by rw [accepted_run]; exact Nat.zero_add _)

/-! ## While a release is announced -/

/-- A request waits for a reserved owner, who gives its lease back. -/
def releasedRun : List Action :=
  [.reserveExternalBatch true, .returns, .requestCommit true, .leaseReleased]

/-- `activeChanged(false)` is a call out of the coordinator, which is idle by then. -/
theorem waiter_queued_while_releasing :
    ¬ ∀ actions : List Action, (actions.foldl step {}).coordinator.active = false →
      (actions.foldl step {}).coordinator.suspended = false →
      (actions.foldl step {}).coordinator.completions = [] := by
  intro hqueued
  exact absurd (hqueued releasedRun rfl rfl) (by decide)

/-- When the call has returned the waiter's batch runs, and its end is the answer. -/
theorem coordinated_run_released (result : FileStagingBatchResult) :
    let actions := releasedRun ++ [.returns, .returns, .returns, .returns,
      .operationCompletes 0 result, .returns, .returns]
    (actions.foldl step {}).notified = [(0, result)] ∧
      Coordinated actions (actions.foldl step {}) :=
  ⟨rfl, coordinated_run _⟩

end CoordinatorWorld

end UwfManager
