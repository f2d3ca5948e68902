import UwfManager.Commit.CommitPreparation

/-!
# The execution of a commit

The targets of an accepted plan are executed one by one on a worker.  The user may cancel
between two of them, and a target may throw.  What is reported accounts for every target:
each one that was executed has a row, in order, and the others are counted as untouched.
-/

namespace UwfManager

/-! ## Results -/

/-- The numbers of a `CommitTargetResult` are 32 bits wide; `hresult` is signed, and only its
bits count. -/
structure CommitTargetResult where
  existedBefore : Option Bool := none
  existsAfter : Option Bool := none
  targetAlreadyAbsent : Bool := false
  hresult : UInt32 := 0
  returnValue : UInt32 := 0
  failureDetail : Text := []
  authoritativeFailure : Text := []
  succeeded : Bool := false
  deriving DecidableEq

inductive CommitFailureKind where
  | none
  | generalFailure
  | notFound
  | invalidParameter
  | other
  deriving DecidableEq, Repr

def classifyCommitFailure (hresult returnValue : UInt32) : CommitFailureKind :=
  let code := if hresult ≠ 0 then hresult else returnValue
  if code = 0 then .none
  else if code = 0x80041001 then .generalFailure
  else if code = 0x80041002 then .notFound
  else if code = 0x80041008 then .invalidParameter
  else .other

/-! ## Rows -/

inductive CommitRowStatus where
  | succeeded
  | skipped
  | failed
  deriving DecidableEq, Repr

structure CommitReportRow where
  status : CommitRowStatus := .failed
  path : Text
  errorCode : Text
  reason : Text
  existedBefore : Option Bool
  existsAfter : Option Bool
  deriving DecidableEq

structure CommitCounts where
  succeeded : ℕ := 0
  skipped : ℕ := 0
  failed : ℕ := 0
  deriving DecidableEq

def explainCommitFailure (hresult returnValue : UInt32) (operation : CommitOperation) : Text :=
  if hresult ≠ 0 ∨ returnValue ≠ 0 then
    match classifyCommitFailure hresult returnValue with
    | .generalFailure => "The operation failed. The target may be in use by another process (e.g. an Explorer window browsing the folder, or the file is open). Close any program holding it and try again.".toList
    | .notFound =>
        if operation = .deleteAndPersist then
          "Target is not on the physical volume / persistent registry — it exists only in the overlay (created under UWF protection, never committed). It will disappear on reboot; commit-delete is neither needed nor possible.".toList
        else "The target was not found; there is nothing in the overlay to commit.".toList
    | .invalidParameter =>
        "A parameter was rejected by the system (invalid path or argument).".toList
    | _ =>
        if hresult ≠ 0 then "The operation failed (see log for details).".toList
        else "Operation rejected (code ".toList ++ Nat.toDigits 10 returnValue.toNat ++ ").".toList
  else "Unknown cause.".toList

def formatErrorCode (hresult returnValue : UInt32) : Text :=
  if hresult ≠ 0 then
    "0x".toList ++ ((Nat.toDigits 16 hresult.toNat).map Char.toUpper).leftpad 8 '0'
  else if returnValue ≠ 0 then "rv=".toList ++ Nat.toDigits 10 returnValue.toNat
  else "-".toList

def makeCommitReportRow (result : CommitTargetResult) (display : Text)
    (operation : CommitOperation) : CommitReportRow :=
  if result.targetAlreadyAbsent then
    { status := .skipped
      path := display
      errorCode := "-".toList
      reason := "The target no longer exists, so there is nothing to delete.".toList
      existedBefore := some false
      existsAfter := some false }
  else if result.succeeded then
    { status := .succeeded
      path := display
      errorCode := "-".toList
      reason := "-".toList
      existedBefore := result.existedBefore
      existsAfter := result.existsAfter }
  else
    let code := if result.hresult ≠ 0 then result.hresult else result.returnValue
    let skipped := classifyCommitFailure result.hresult result.returnValue = .notFound
    { status := if skipped then .skipped else .failed
      path := display
      errorCode := if code = 0 then "-".toList
        else formatErrorCode result.hresult result.returnValue
      reason := if !result.authoritativeFailure.isEmpty then result.authoritativeFailure
        else if code = 0 then result.failureDetail
        else explainCommitFailure result.hresult result.returnValue operation
      existedBefore := result.existedBefore
      existsAfter := result.existsAfter }

def countCommitResult (counts : CommitCounts) (row : CommitReportRow) : CommitCounts :=
  match row.status with
  | .succeeded => { counts with succeeded := counts.succeeded + 1 }
  | .skipped => { counts with skipped := counts.skipped + 1 }
  | .failed => { counts with failed := counts.failed + 1 }

def countCommitResults (rows : List CommitReportRow) : CommitCounts :=
  rows.foldl countCommitResult {}

/-! ## The batch -/

/-- What the worker calls, with a state of any kind: the target, and whether the stop has not
been requested so far. -/
structure CommitExecution (σ : Type*) where
  execute : CommitNode → CommitOperation → σ → Except Thrown CommitTargetResult × σ
  continueAt : ℕ → σ → Bool × σ

/-- The variables of the worker.  `executed` lists the calls of `execute` with their answers. -/
structure BatchState (σ : Type*) where
  rows : List CommitReportRow := []
  attempted : ℕ := 0
  executed : List (CommitNode × Except Thrown CommitTargetResult) := []
  world : σ

structure CommitBatchOutcome where
  processed : ℕ
  untouched : ℤ
  deriving DecidableEq

variable {σ : Type*} (calls : CommitExecution σ) (operation : CommitOperation)

/-- The loop over the targets whose index is below the total. -/
def executeCommitBatch (total : ℤ) :
    List CommitNode → ℕ → BatchState σ → Except Thrown CommitBatchOutcome × BatchState σ
  | [], processed, state => (.ok ⟨processed, 0⟩, state)
  | target :: rest, processed, state =>
      let goes := calls.continueAt processed state.world
      if !goes.1 then (.ok ⟨processed, total - processed⟩, { state with world := goes.2 })
      else
        let answer := calls.execute target operation goes.2
        let called : BatchState σ :=
          { state with
            attempted := state.attempted + 1
            executed := state.executed ++ [(target, answer.1)]
            world := answer.2 }
        match answer.1 with
        | .error thrown => (.error thrown, called)
        | .ok result =>
            executeCommitBatch total rest (processed + 1)
              { called with
                rows := called.rows ++ [makeCommitReportRow result target.display operation] }

/-- `static_cast<int>` of a size. -/
def toInt32 (size : ℕ) : ℤ := Int.bmod size 4294967296

structure ExecutionOutcome where
  rows : List CommitReportRow
  untouched : ℤ
  counts : CommitCounts
  error : Text

/-- What the worker makes of a batch: a target that threw is reported by a row of its own. -/
def reportBatch (total : ℤ) (targets : List CommitNode)
    (result : Except Thrown CommitBatchOutcome) (state : BatchState σ) : ExecutionOutcome :=
  let (untouched, error) := match result with
    | .ok outcome => (outcome.untouched, [])
    | .error thrown => (total - state.attempted, thrown.text)
  let rows := if state.attempted > state.rows.length then
      state.rows ++ [makeCommitReportRow { failureDetail := error }
        ((targets[state.attempted - 1]?).elim [] CommitNode.display) operation]
    else state.rows
  ⟨rows, untouched, countCommitResults rows, error⟩

def runBatch (total : ℤ) (targets : List CommitNode) (world : σ) :
    ExecutionOutcome × BatchState σ :=
  let run := executeCommitBatch calls operation total (targets.take total.toNat) 0
    { world := world }
  (reportBatch operation total targets run.1 run.2, run.2)

/-- What the worker of `commit` returns, and the state it leaves. -/
def commitTargets (targets : List CommitNode) (world : σ) : ExecutionOutcome × BatchState σ :=
  runBatch calls operation (toInt32 targets.length) targets world

inductive CommitPhase where
  | complete
  | canceled
  | failed
  deriving DecidableEq, Repr

/-- The phase of the operation when the worker is done. -/
def ExecutionOutcome.phase (outcome : ExecutionOutcome) : CommitPhase :=
  if !outcome.error.isEmpty then .failed
  else if outcome.untouched ≠ 0 then .canceled
  else .complete

/-! ## Accounting -/

/-- The row of a target that was executed. -/
def rowOf (operation : CommitOperation) (entry : CommitNode × Except Thrown CommitTargetResult) :
    CommitReportRow :=
  match entry.2 with
  | .ok result => makeCommitReportRow result entry.1.display operation
  | .error thrown =>
      makeCommitReportRow { failureDetail := thrown.text } entry.1.display operation

/-- The targets were executed in order from the first one, each row is that of its target,
and the rows and the untouched targets make up the list. -/
structure AccountsFor (operation : CommitOperation) (targets : List CommitNode)
    (outcome : ExecutionOutcome) (executed : List (CommitNode × Except Thrown CommitTargetResult)) :
    Prop where
  order : executed.map Prod.fst = targets.take executed.length
  rows : outcome.rows = executed.map (rowOf operation)
  total : (outcome.rows.length : ℤ) + outcome.untouched = targets.length

variable {calls operation}

/-- Every call so far has its row. -/
structure Tallied (operation : CommitOperation) (state : BatchState σ) : Prop where
  attempted : state.attempted = state.executed.length
  rows : state.rows = state.executed.map (rowOf operation)

/-- How a batch ends: after the last target, at a request to stop, or in a target that throws. -/
inductive Ended (operation : CommitOperation) (total : ℤ) (targets : List CommitNode)
    (before : List (CommitNode × Except Thrown CommitTargetResult)) :
    Except Thrown CommitBatchOutcome → BatchState σ → Prop
  | finished {state : BatchState σ} (htallied : Tallied operation state)
      (hexecuted : state.executed.map Prod.fst = before.map Prod.fst ++ targets) :
      Ended operation total targets before (.ok ⟨state.executed.length, 0⟩) state
  | stopped {state : BatchState σ} {done rest : List CommitNode} {target : CommitNode}
      (htargets : targets = done ++ target :: rest) (htallied : Tallied operation state)
      (hexecuted : state.executed.map Prod.fst = before.map Prod.fst ++ done) :
      Ended operation total targets before
        (.ok ⟨state.executed.length, total - state.executed.length⟩) state
  | thrown {state : BatchState σ} {done rest : List CommitNode} {target : CommitNode}
      {earlier : List (CommitNode × Except Thrown CommitTargetResult)} {cause : Thrown}
      (htargets : targets = done ++ target :: rest)
      (hattempted : state.attempted = earlier.length + 1)
      (hexecuted : state.executed = earlier ++ [(target, .error cause)])
      (hrows : state.rows = earlier.map (rowOf operation))
      (hearlier : earlier.map Prod.fst = before.map Prod.fst ++ done) :
      Ended operation total targets before (.error cause) state

/-- One more target was executed before. -/
theorem Ended.cons {total : ℤ} {targets : List CommitNode}
    {before : List (CommitNode × Except Thrown CommitTargetResult)}
    {entry : CommitNode × Except Thrown CommitTargetResult}
    {result : Except Thrown CommitBatchOutcome} {state : BatchState σ}
    (hended : Ended operation total targets (before ++ [entry]) result state) :
    Ended operation total (entry.1 :: targets) before result state := by
  have hbefore : ∀ done : List CommitNode, (before ++ [entry]).map Prod.fst ++ done =
      before.map Prod.fst ++ entry.1 :: done := fun done => by
    rw [List.map_append, List.append_assoc]
    rfl
  cases hended with
  | finished htallied hexecuted => exact .finished htallied (hexecuted.trans (hbefore _))
  | stopped htargets htallied hexecuted =>
      exact .stopped (congrArg (entry.1 :: ·) htargets) htallied (hexecuted.trans (hbefore _))
  | thrown htargets hattempted hexecuted hrows hearlier =>
      exact .thrown (congrArg (entry.1 :: ·) htargets) hattempted hexecuted hrows
        (hearlier.trans (hbefore _))

theorem executeCommitBatch_ended (total : ℤ) (targets : List CommitNode) {state : BatchState σ}
    (htallied : Tallied operation state) :
    Ended operation total targets state.executed
      (executeCommitBatch calls operation total targets state.executed.length state).1
      (executeCommitBatch calls operation total targets state.executed.length state).2 := by
  induction targets generalizing state with
  | nil => exact .finished htallied (List.append_nil _).symm
  | cons target rest ih =>
      rw [executeCommitBatch]
      obtain ⟨goes, after⟩ := calls.continueAt state.executed.length state.world
      cases goes with
      | false =>
          have hstopped : Tallied operation { state with world := after } :=
            ⟨htallied.attempted, htallied.rows⟩
          exact .stopped (List.nil_append _).symm hstopped (List.append_nil _).symm
      | true =>
          rw [if_neg (show ¬(!true) = true from nofun)]
          obtain ⟨answer, later⟩ := calls.execute target operation after
          cases answer with
          | error cause =>
              have hattempted : state.attempted + 1 = state.executed.length + 1 := by
                rw [htallied.attempted]
              exact @Ended.thrown σ operation total (target :: rest) state.executed
                { state with
                  attempted := state.attempted + 1
                  executed := state.executed ++ [(target, .error cause)]
                  world := later }
                [] rest target state.executed cause rfl hattempted rfl htallied.rows
                (List.append_nil _).symm
          | ok result =>
              have hnext : Tallied operation { state with
                  rows := state.rows ++ [makeCommitReportRow result target.display operation]
                  attempted := state.attempted + 1
                  executed := state.executed ++ [(target, .ok result)]
                  world := later } := by
                constructor
                · rw [List.length_append, htallied.attempted]
                  rfl
                · rw [List.map_append, ← htallied.rows]
                  rfl
              have hended := ih hnext
              rw [List.length_append] at hended
              exact hended.cons

theorem Tallied.rows_length {state : BatchState σ} (htallied : Tallied operation state) :
    state.rows.length = state.executed.length := by
  rw [htallied.rows, List.length_map]

theorem reportBatch_ok {total : ℤ} {targets : List CommitNode} {outcome : CommitBatchOutcome}
    {state : BatchState σ} (htallied : Tallied operation state) :
    reportBatch operation total targets (.ok outcome) state =
      ⟨state.rows, outcome.untouched, countCommitResults state.rows, []⟩ := by
  have hrows : ¬state.attempted > state.rows.length := by
    rw [htallied.attempted, htallied.rows_length]
    exact lt_irrefl _
  simp only [reportBatch, if_neg hrows]

/-- What was executed before a target of the batch is the beginning of the list. -/
theorem executed_eq_take {executed : List (CommitNode × Except Thrown CommitTargetResult)}
    {targets rest : List CommitNode} {count : ℕ}
    (htargets : targets.take count = executed.map Prod.fst ++ rest) :
    executed.map Prod.fst = targets.take executed.length := by
  have hprefix : executed.map Prod.fst <+: targets :=
    (List.prefix_append (executed.map Prod.fst) rest).trans
      (htargets ▸ List.take_prefix count targets)
  have htake := List.prefix_iff_eq_take.mp hprefix
  rwa [List.length_map] at htake

/-- The target that threw has the last row. -/
theorem reportBatch_error {total : ℤ} {targets rest : List CommitNode} {count : ℕ}
    {earlier : List (CommitNode × Except Thrown CommitTargetResult)} {target : CommitNode}
    {cause : Thrown} {state : BatchState σ}
    (htargets : targets.take count = earlier.map Prod.fst ++ target :: rest)
    (hattempted : state.attempted = earlier.length + 1)
    (hrows : state.rows = earlier.map (rowOf operation)) :
    (reportBatch operation total targets (.error cause) state).rows =
        (earlier ++ [(target, Except.error cause)]).map (rowOf operation) ∧
      (reportBatch operation total targets (.error cause) state).untouched =
        total - (earlier.length + 1 : ℕ) := by
  have hmore : state.attempted > state.rows.length := by
    rw [hattempted, hrows, List.length_map]
    exact Nat.lt_succ_self _
  have hcount : earlier.length < count := by
    have hlengths := congrArg List.length htargets
    rw [List.length_take, List.length_append, List.length_map, List.length_cons] at hlengths
    omega
  have htarget : targets[earlier.length]? = some target := by
    rw [← List.getElem?_take_of_lt hcount, htargets,
      List.getElem?_append_right (List.length_map _).le, List.length_map, Nat.sub_self]
    rfl
  have hlast : targets[state.attempted - 1]? = some target := by
    rw [hattempted, Nat.add_sub_cancel]
    exact htarget
  simp only [reportBatch, if_pos hmore, hlast]
  constructor
  · rw [hrows, List.map_append]
    rfl
  · rw [hattempted]

/-- The rows and the untouched targets make up the total that the batch was told. -/
theorem Ended.reportBatch_accounts {total : ℤ} {targets : List CommitNode}
    {result : Except Thrown CommitBatchOutcome} {state : BatchState σ}
    (hended : Ended operation total (targets.take total.toNat) [] result state)
    (hlength : total ≤ targets.length) :
    state.executed.map Prod.fst = targets.take state.executed.length ∧
      (reportBatch operation total targets result state).rows =
        state.executed.map (rowOf operation) ∧
      ((reportBatch operation total targets result state).rows.length : ℤ) +
        (reportBatch operation total targets result state).untouched = max 0 total := by
  have htake : (targets.take total.toNat).length = total.toNat := by
    rw [List.length_take]
    omega
  cases hended with
  | finished htallied hexecuted =>
      rw [List.map_nil, List.nil_append] at hexecuted
      have hcount : state.executed.length = total.toNat := by
        rw [← htake, ← hexecuted, List.length_map]
      have hall : targets.take total.toNat = state.executed.map Prod.fst ++ [] := by
        rw [List.append_nil, hexecuted]
      have hsum : (state.rows.length : ℤ) + 0 = max 0 total := by
        rw [htallied.rows_length, hcount]
        omega
      rw [reportBatch_ok htallied]
      exact ⟨executed_eq_take hall, htallied.rows, hsum⟩
  | @stopped _ done rest target htargets htallied hexecuted =>
      rw [List.map_nil, List.nil_append] at hexecuted
      rw [← hexecuted] at htargets
      have hpositive : state.executed.length < total.toNat := by
        rw [← htake, htargets, List.length_append, List.length_map, List.length_cons]
        omega
      have hsum : (state.rows.length : ℤ) + (total - state.executed.length) = max 0 total := by
        rw [htallied.rows_length]
        omega
      rw [reportBatch_ok htallied]
      exact ⟨executed_eq_take htargets, htallied.rows, hsum⟩
  | @thrown _ done rest target earlier cause htargets hattempted hexecuted hrows hearlier =>
      rw [List.map_nil, List.nil_append] at hearlier
      rw [← hearlier] at htargets
      have hpositive : earlier.length < total.toNat := by
        rw [← htake, htargets, List.length_append, List.length_map, List.length_cons]
        omega
      have hprefix : targets.take total.toNat =
          (earlier ++ [(target, Except.error cause)]).map Prod.fst ++ rest := by
        rw [htargets, List.map_append, List.append_assoc]
        rfl
      have hreport := @reportBatch_error σ operation total targets rest total.toNat earlier target
        cause state htargets hattempted hrows
      rw [hexecuted, hreport.1, hreport.2]
      refine ⟨executed_eq_take hprefix, rfl, ?_⟩
      rw [List.length_map, List.length_append, List.length_singleton]
      omega

/-- The rows and the untouched targets of a run make up its total. -/
theorem runBatch_accounts {total : ℤ} {targets : List CommitNode} (world : σ)
    (hlength : total ≤ targets.length) :
    (runBatch calls operation total targets world).2.executed.map Prod.fst =
        targets.take (runBatch calls operation total targets world).2.executed.length ∧
      (runBatch calls operation total targets world).1.rows =
        (runBatch calls operation total targets world).2.executed.map (rowOf operation) ∧
      ((runBatch calls operation total targets world).1.rows.length : ℤ) +
        (runBatch calls operation total targets world).1.untouched = max 0 total :=
  (@executeCommitBatch_ended σ calls operation total (targets.take total.toNat)
    { world := world } ⟨rfl, rfl⟩).reportBatch_accounts hlength

/-! ## The width of the total -/

theorem bmod_le_self (size modulus : ℕ) : Int.bmod size modulus ≤ size := by
  have hmod : (size : ℤ) % modulus ≤ size := mod_cast Nat.mod_le size modulus
  rw [Int.bmod_def]
  split <;> omega

theorem max_bmod_eq_iff {size modulus : ℕ} (hmodulus : 1 < modulus) :
    max 0 (Int.bmod size modulus) = size ↔ size < (modulus + 1) / 2 := by
  constructor
  · intro hmax
    have hlt : Int.bmod size modulus < (modulus + 1) / 2 := Int.bmod_lt (by omega)
    omega
  · intro hsmall
    have hsame : Int.bmod size modulus = size := by
      apply Int.bmod_eq_of_le_mul_two <;> omega
    rw [hsame]
    omega

theorem bmod_nonpos {size modulus : ℕ} (hhalf : (modulus + 1) / 2 ≤ size)
    (hmodulus : size ≤ modulus) : Int.bmod size modulus ≤ 0 := by
  rcases hmodulus.eq_or_lt with rfl | hlt
  · rw [Int.bmod_self]
  · have hmod : (size : ℤ) % modulus = size := mod_cast Nat.mod_eq_of_lt hlt
    rw [Int.bmod_def, hmod]
    split <;> omega

theorem toInt32_le (size : ℕ) : toInt32 size ≤ size :=
  bmod_le_self size _

theorem max_toInt32_eq_iff (size : ℕ) : max 0 (toInt32 size) = size ↔ size < 2 ^ 31 :=
  max_bmod_eq_iff (Nat.one_lt_succ_succ _)

/-- The report accounts for every target exactly when the number of targets is an `int`. -/
theorem commitTargets_accounts_iff (targets : List CommitNode) (world : σ) :
    AccountsFor operation targets (commitTargets calls operation targets world).1
        (commitTargets calls operation targets world).2.executed ↔
      targets.length < 2 ^ 31 := by
  obtain ⟨horder, hrows, htotal⟩ :=
    @runBatch_accounts σ calls operation (toInt32 targets.length) targets world
      (toInt32_le targets.length)
  rw [← max_toInt32_eq_iff]
  constructor
  · intro haccounts
    exact htotal.symm.trans haccounts.total
  · intro hmax
    exact ⟨horder, hrows, htotal.trans hmax⟩

/-- Calls of targets that all succeed, with no request to stop. -/
def succeedingExecution : CommitExecution Unit where
  execute _ _ _ := (.ok { succeeded := true }, ())
  continueAt _ _ := (true, ())

theorem runBatch_of_nonpos {total : ℤ} {targets : List CommitNode} (world : σ) (hneg : total ≤ 0) :
    (runBatch calls operation total targets world).1 = ⟨[], 0, {}, []⟩ := by
  rw [runBatch, Int.toNat_of_nonpos hneg, List.take_zero, executeCommitBatch]
  rfl

/-- The batch is told that `2 ^ 31` targets are negatively many: the run is reported as complete
with neither rows nor untouched targets. -/
theorem wide_batch_unaccounted :
    let targets := List.replicate (2 ^ 31) ({ path := "D:\\a".toList } : CommitNode)
    (commitTargets succeedingExecution .persist targets ()).1.phase = .complete ∧
      ¬AccountsFor .persist targets (commitTargets succeedingExecution .persist targets ()).1
        (commitTargets succeedingExecution .persist targets ()).2.executed := by
  intro targets
  have hlength : targets.length = 2 ^ 31 := List.length_replicate
  have hnonpos : toInt32 targets.length ≤ 0 := by
    rw [hlength]
    exact bmod_nonpos (by omega) (by omega)
  clear_value targets
  constructor
  · rw [commitTargets, runBatch_of_nonpos () hnonpos]
    rfl
  · obtain ⟨-, -, htotal⟩ :=
      @runBatch_accounts Unit succeedingExecution .persist (toInt32 targets.length) targets ()
        (toInt32_le targets.length)
    intro haccounts
    have hsmall := (max_toInt32_eq_iff targets.length).mp (htotal.symm.trans haccounts.total)
    rw [hlength] at hsmall
    exact lt_irrefl _ hsmall

end UwfManager
