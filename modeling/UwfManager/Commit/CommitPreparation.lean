import UwfManager.Commit.CommitPlan
import UwfManager.Staging.FileStagingDraft
import Mathlib.Algebra.GroupWithZero.Nat
import Mathlib.Data.Finset.Card

/-!
# The preparation of a commit

The preparation walks a file or registry tree and records what it finds.  Reads
and inspections may fail; a later preparation of the same plan takes up the
records that have failed.  The file models the walk over any source and proves
that however often it is resumed, a plan without a failed record holds what one
walk without failures records.
-/

namespace UwfManager

/-! ## Nodes -/

def CommitTargetKind.number : CommitTargetKind → ℕ
  | file => 0
  | folder => 1
  | registryKey => 2
  | registryValue => 3

/-- The length in UTF-16 code units. -/
def utf16Size (text : Text) : ℕ := (text.map fun c => if c.toNat < 0x10000 then 1 else 2).sum

namespace CommitNode

def display (node : CommitNode) : Text :=
  if node.kind = .registryValue then
    node.path ++ " : ".toList ++ (if node.valueName.isEmpty then "(Default)".toList else node.valueName)
  else node.path

/-- Files and folders share their identities, and case does not count. -/
def identity (qt : Qt) (node : CommitNode) : Text :=
  let key := qt.toCaseFolded node.path
  (Nat.repr (if node.kind = .folder then CommitTargetKind.file else node.kind).number).toList ++
    ':' :: (Nat.repr (utf16Size key)).toList ++ ':' :: key ++ qt.toCaseFolded node.valueName

end CommitNode

/-! ## Progress -/

structure CommitTraversalProgress where
  items : ℤ := 0
  containers : ℤ := 0
  failed : ℤ := 0
  path : Text := []
  kind : Option CommitTargetKind := none
  deriving DecidableEq

/-- Counts a record, or takes it back with the sign `-1`. -/
def CommitTraversalProgress.count (counts : CommitTraversalProgress)
    (record : CommitTraversalRecord) (sign : ℤ) : CommitTraversalProgress :=
  match record.status with
  | .failed => { counts with failed := counts.failed + sign }
  | .succeeded =>
      if record.node.kind.container then { counts with containers := counts.containers + sign }
      else { counts with items := counts.items + sign }
  | .skipped => counts

def CommitPlan.progress (plan : CommitPlan) : CommitTraversalProgress :=
  plan.records.foldl (fun counts record => counts.count record 1)
    { kind := some plan.request.target.kind }

/-! ## The source of a walk -/

/-- The children that a read publishes, and what it returns or throws. -/
structure ReadOutcome where
  published : List CommitNode
  result : Except Thrown Text

/-- A source with a state of its own, which also knows whether a stop has been
requested.  A request is not taken back. -/
structure TraversalSource (σ : Type*) where
  inspect : CommitNode → σ → Except Thrown (Option CommitNode) × σ
  read : CommitNode → σ → ReadOutcome × σ
  stopRequested : σ → Bool
  stop_inspect : ∀ node state, stopRequested state = true →
    stopRequested (inspect node state).2 = true
  stop_read : ∀ node state, stopRequested state = true → stopRequested (read node state).2 = true

/-! ## The walk -/

/-- The variables of `prepareCommit`.  `pending` has the node that is taken next
first, and `reads` lists the nodes that were read. -/
structure PreparationState (σ : Type*) where
  plan : CommitPlan
  indexes : Text → Option ℕ := fun _ => none
  pending : List CommitNode := []
  visited : List Text := []
  counts : CommitTraversalProgress := {}
  published : List CommitTraversalProgress := []
  reads : List CommitNode := []
  source : σ

variable (qt : Qt) {σ : Type*}

def Thrown.text : Thrown → Text
  | standard error => error.what
  | other => "The operation failed with an unknown error.".toList

def observeFailure (record : CommitTraversalRecord) (error : Text) : CommitTraversalRecord :=
  { record with status := .failed, error := error }

def missingTarget : Text := "The target no longer exists.".toList

namespace PreparationState

def indexOf (state : PreparationState σ) (node : CommitNode) : Option ℕ :=
  state.indexes (node.identity qt)

def recordOf (state : PreparationState σ) (node : CommitNode) : Option CommitTraversalRecord :=
  (state.indexOf qt node).bind fun index => state.plan.records[index]?

def finished (state : PreparationState σ) (node : CommitNode) : Bool :=
  (state.recordOf qt node).any fun record => record.status ≠ .failed

/-- The record of an attempt at this node. -/
def attempt (state : PreparationState σ) (candidate : CommitNode) : CommitTraversalRecord :=
  let record := (state.recordOf qt candidate).getD { node := candidate }
  { record with node := candidate, error := [], attempts := record.attempts + 1 }

def withHistory (record : CommitTraversalRecord) : CommitTraversalRecord :=
  if record.error.isEmpty then record
  else { record with errorHistory := record.errorHistory ++ [record.error] }

/-- Writes the record to the place of the previous one, or to a new place. -/
def store (record : CommitTraversalRecord) (previous : Option ℕ) (state : PreparationState σ) :
    PreparationState σ :=
  match previous with
  | some index =>
      let old := state.plan.records[index]?
      { state with
        counts := old.elim state.counts fun old => state.counts.count old (-1)
        indexes := Function.update
          (old.elim state.indexes fun old =>
            Function.update state.indexes (old.node.identity qt) none)
          (record.node.identity qt) (some index)
        plan := { state.plan with records := state.plan.records.set index record } }
  | none =>
      { state with
        indexes := Function.update state.indexes (record.node.identity qt)
          (some state.plan.records.length)
        plan := { state.plan with records := state.plan.records ++ [record] } }

def remember (record : CommitTraversalRecord) (previous : Option ℕ) (state : PreparationState σ) :
    PreparationState σ :=
  let stored := state.store qt (withHistory record) previous
  let counts := { stored.counts.count (withHistory record) 1 with
    path := record.node.display, kind := some stored.plan.request.target.kind }
  { stored with counts := counts, published := stored.published ++ [counts] }

variable (source : TraversalSource σ)

/-- Records a leaf at once and keeps a container for later. -/
def discover (state : PreparationState σ) (candidate : CommitNode) : PreparationState σ :=
  if source.stopRequested state.source || state.visited.contains (candidate.identity qt) ||
      state.finished qt candidate then state
  else
    let previous := state.indexOf qt candidate
    let record := state.attempt qt candidate
    let observed := source.inspect candidate state.source
    let state := { state with source := observed.2 }
    let publish := fun (record : CommitTraversalRecord) =>
      if source.stopRequested state.source then state
      else
        { state with
          visited := record.node.identity qt :: candidate.identity qt :: state.visited }.remember qt
            record previous
    match observed.1 with
    | .ok (some node) =>
        if node.kind.container && node.skippedReason.isEmpty then
          { state with pending := node :: state.pending }
        else
          publish { record with
            node := node
            status := if node.skippedReason.isEmpty then .succeeded else .skipped
            error := node.skippedReason }
    | .ok none => publish (observeFailure record missingTarget)
    | .error thrown => publish (observeFailure record thrown.text)

/-- Whether the observed node is the target of the request. -/
def isTarget (target node : CommitNode) : Bool :=
  qt.sameText node.path target.path && qt.sameText node.valueName target.valueName &&
    (node.kind == target.kind ||
      (node.kind == .file || node.kind == .folder) &&
        (target.kind == .file || target.kind == .folder))

def noteTarget (target node : CommitNode) (plan : CommitPlan) : CommitPlan :=
  if isTarget qt target node then { plan with request := { plan.request with target := node } }
  else plan

/-- Reads an observed node; its children are discovered on the way. -/
def readNode (state : PreparationState σ) (node : CommitNode) (record : CommitTraversalRecord) :
    CommitTraversalRecord × PreparationState σ :=
  let outcome := source.read node state.source
  let walked := outcome.1.published.foldl (discover qt source)
    { state with source := outcome.2, reads := state.reads ++ [node] }
  match outcome.1.result with
  | .ok error =>
      ({ record with
          error := error, status := if error.isEmpty then .succeeded else .failed }, walked)
  | .error thrown => (observeFailure record thrown.text, walked)

/-- Inspects and reads the node just taken from `pending`. -/
def examine (target : CommitNode) (state : PreparationState σ) (candidate : CommitNode) :
    CommitTraversalRecord × PreparationState σ :=
  let record := state.attempt qt candidate
  let observed := source.inspect candidate state.source
  let state := { state with
    visited := candidate.identity qt :: state.visited, source := observed.2 }
  match observed.1 with
  | .ok (some node) =>
      let state := { state with
        visited := node.identity qt :: state.visited, plan := noteTarget qt target node state.plan }
      if !node.skippedReason.isEmpty then
        ({ record with node := node, status := .skipped, error := node.skippedReason }, state)
      else state.readNode qt source node { record with node := node }
  | .ok none => (observeFailure record missingTarget, state)
  | .error thrown => (observeFailure record thrown.text, state)

/-- One round of the loop. -/
def visit (target : CommitNode) (state : PreparationState σ) (candidate : CommitNode) :
    PreparationState σ :=
  if state.visited.contains (candidate.identity qt) || state.finished qt candidate then state
  else
    let examined := state.examine qt source target candidate
    if source.stopRequested examined.2.source then examined.2
    else examined.2.remember qt examined.1 (state.indexOf qt candidate)

/-- The loop; `none` if the fuel does not last. -/
def drain (target : CommitNode) : ℕ → PreparationState σ → Option (PreparationState σ)
  | 0, state =>
      if state.pending.isEmpty || source.stopRequested state.source then some state else none
  | fuel + 1, state =>
      match state.pending with
      | [] => some state
      | candidate :: rest =>
          if source.stopRequested state.source then some state
          else drain target fuel ({ state with pending := rest }.visit qt source target candidate)

def insertIndex (indexes : Text → Option ℕ) (entry : CommitTraversalRecord × ℕ) :
    Text → Option ℕ :=
  Function.update indexes (entry.1.node.identity qt) (some entry.2)

/-- The state before the loop. -/
def start (request : CommitRequest) (plan : CommitPlan) (state : σ) : PreparationState σ :=
  let plan := { plan with request := request, canceled := false }
  { plan := plan
    indexes := plan.records.zipIdx.foldl (insertIndex qt) fun _ => none
    pending := if plan.records.isEmpty then [request.target]
      else ((plan.records.filter fun record => record.status = .failed).map (·.node)).reverse
    counts := plan.progress
    source := state }

end PreparationState

/-- What a preparation returns, the progress it has published and the nodes it has read. -/
structure Preparation where
  plan : CommitPlan
  published : List CommitTraversalProgress
  reads : List CommitNode
  deriving DecidableEq

def prepareCommit (source : TraversalSource σ) (fuel : ℕ) (request : CommitRequest)
    (plan : CommitPlan) (state : σ) : Option Preparation :=
  (PreparationState.drain qt source request.target fuel
    (PreparationState.start qt request plan state)).map fun final =>
      { plan := { final.plan with canceled := source.stopRequested final.source }
        published := final.published
        reads := final.reads }

/-! ## Trees -/

/-- What the inspections and the complete reads of a tree answer. -/
structure CommitTreeShape where
  root : CommitNode
  look : CommitNode → Option CommitNode
  children : CommitNode → List CommitNode

/-- The nodes that a read of the tree publishes; nothing is read below a skipped node. -/
inductive CommitTreeShape.Reached (tree : CommitTreeShape) : CommitNode → Prop
  | root : Reached tree tree.root
  | child {parent node child : CommitNode} : Reached tree parent → tree.look parent = some node →
      node.skippedReason = [] → child ∈ tree.children node → Reached tree child

/-- A finite tree.  An inspection only tells the kind of a node and whether it is
skipped, only containers have children, and nodes of one identity are one node. -/
structure CommitTree extends CommitTreeShape where
  identities : List Text
  look_identity : ∀ node seen, look node = some seen → seen.identity qt = node.identity qt
  look_look : ∀ node seen, look node = some seen → look seen = some seen
  leaf : ∀ node, node.kind.container = false → children node = []
  unique : ∀ first second, toCommitTreeShape.Reached first → toCommitTreeShape.Reached second →
    first.identity qt = second.identity qt → look first = look second
  finite : ∀ node, toCommitTreeShape.Reached node → node.identity qt ∈ identities

variable {qt}

namespace CommitTree

variable (tree : CommitTree qt)

/-- A node that stands for one of the tree: the published one or the inspected one. -/
def Known (node : CommitNode) : Prop :=
  ∃ published, tree.Reached published ∧ node.identity qt = published.identity qt ∧
    tree.look node = tree.look published

def statusOf (node : CommitNode) : TraversalStatus :=
  if node.skippedReason.isEmpty then .succeeded else .skipped

/-- Identity, kind and status of every node, as a walk without failures sees them. -/
def Holds (entry : Text × CommitTargetKind × TraversalStatus) : Prop :=
  ∃ node seen, tree.Reached node ∧ tree.look node = some seen ∧
    entry = (seen.identity qt, seen.kind, statusOf seen)

/-- The source that answers as the tree does, without failures and without a stop. -/
def source : TraversalSource Unit where
  inspect node state := (.ok (tree.look node), state)
  read node state := (⟨tree.children node, .ok []⟩, state)
  stopRequested _ := false
  stop_inspect _ _ hstop := hstop
  stop_read _ _ hstop := hstop

variable {tree}

theorem known_of_reached {node : CommitNode} (hnode : tree.Reached node) : tree.Known node :=
  ⟨node, hnode, rfl, rfl⟩

theorem Known.seen {node seen : CommitNode} (hnode : tree.Known node)
    (hseen : tree.look node = some seen) : tree.Known seen := by
  obtain ⟨published, hpublished, hidentity, hlook⟩ := hnode
  refine ⟨published, hpublished, (tree.look_identity node seen hseen).trans hidentity, ?_⟩
  rw [tree.look_look node seen hseen, ← hlook, hseen]

theorem Known.child {node seen child : CommitNode} (hnode : tree.Known node)
    (hseen : tree.look node = some seen) (hskip : seen.skippedReason = [])
    (hchild : child ∈ tree.children seen) : tree.Known child := by
  obtain ⟨published, hpublished, -, hlook⟩ := hnode
  exact known_of_reached (.child hpublished (hlook ▸ hseen) hskip hchild)

theorem Known.identity_mem {node : CommitNode} (hnode : tree.Known node) :
    node.identity qt ∈ tree.identities := by
  obtain ⟨published, hpublished, hidentity, -⟩ := hnode
  rw [hidentity]
  exact tree.finite published hpublished

end CommitTree

/-- The answers of the source are those of the tree, but for failures: an inspection
that sees the node sees it as it is, a read publishes only children, and a read
that reports no error has published them all. -/
structure FailsTransiently {σ : Type*} (tree : CommitTree qt) (source : TraversalSource σ) :
    Prop where
  inspect : ∀ node state seen, (source.inspect node state).1 = .ok (some seen) →
    tree.look node = some seen
  published : ∀ node state, (source.read node state).1.published ⊆ tree.children node
  complete : ∀ node state, (source.read node state).1.result = .ok [] →
    tree.children node ⊆ (source.read node state).1.published

theorem CommitTree.source_failsTransiently (tree : CommitTree qt) :
    FailsTransiently tree tree.source where
  inspect node state seen hseen := by
    injection hseen
  published node state := List.Subset.refl _
  complete node state _ := List.Subset.refl _

/-! ## The invariant of a walk -/

/-- The index of the records is exact, so no identity repeats. -/
structure Indexed (qt : Qt) (records : List CommitTraversalRecord) (indexes : Text → Option ℕ) :
    Prop where
  complete : ∀ index record, records[index]? = some record →
    indexes (record.node.identity qt) = some index
  sound : ∀ identity index, indexes identity = some index →
    ∃ record, records[index]? = some record ∧ record.node.identity qt = identity

namespace PreparationState

variable {σ : Type*} (tree : CommitTree qt) (before : List CommitTraversalRecord)

/-- The node has a record, will be taken up, or is the one that is read now. -/
def Accounted (qt : Qt) (state : PreparationState σ) (current : Option Text) (node : CommitNode) : Prop :=
  (state.indexOf qt node).isSome ∨ (∃ other ∈ state.pending, other.identity qt = node.identity qt) ∨
    current = some (node.identity qt)

/-- What holds of a walk that began with these records. -/
structure Walked (current : Option Text) (state : PreparationState σ) : Prop where
  indexed : Indexed qt state.plan.records state.indexes
  known : ∀ record ∈ state.plan.records, tree.Known record.node
  outcome : ∀ record ∈ state.plan.records, record.status ≠ .failed →
    tree.look record.node = some record.node ∧ record.status = CommitTree.statusOf record.node
  closed : ∀ record ∈ state.plan.records, record.status = .succeeded →
    ∀ child ∈ tree.children record.node, state.Accounted qt current child
  rooted : state.Accounted qt current tree.root
  visited : ∀ identity ∈ state.visited,
    (state.indexes identity).isSome ∨ current = some identity
  kept : ∀ (index : ℕ) (record : CommitTraversalRecord), before[index]? = some record → record.status ≠ .failed →
    state.plan.records[index]? = some record
  unread : ∀ node ∈ state.reads, ∀ record ∈ before, record.status ≠ .failed →
    record.node.identity qt ≠ node.identity qt

def PendingKnown (state : PreparationState σ) : Prop := ∀ node ∈ state.pending, tree.Known node

variable {tree before} {state : PreparationState σ} {current : Option Text}

/-! ## Storing a record -/

theorem recordOf_eq_some (hindexed : Indexed qt state.plan.records state.indexes)
    {node : CommitNode} {record : CommitTraversalRecord} :
    state.recordOf qt node = some record ↔
      record ∈ state.plan.records ∧ record.node.identity qt = node.identity qt := by
  rw [recordOf, indexOf]
  constructor
  · intro hrecord
    obtain ⟨index, hindex, hget⟩ := Option.bind_eq_some_iff.1 hrecord
    obtain ⟨found, hfound, hidentity⟩ := hindexed.sound _ index hindex
    rw [hget] at hfound
    cases hfound
    exact ⟨List.mem_of_getElem? hget, hidentity⟩
  · rintro ⟨hmem, hidentity⟩
    obtain ⟨index, hget⟩ := List.mem_iff_getElem?.1 hmem
    rw [← hidentity, hindexed.complete index record hget]
    exact hget

theorem isSome_index (hindexed : Indexed qt state.plan.records state.indexes) {identity : Text} :
    (state.indexes identity).isSome ↔
      ∃ record ∈ state.plan.records, record.node.identity qt = identity := by
  constructor
  · intro hsome
    obtain ⟨index, hindex⟩ := Option.isSome_iff_exists.1 hsome
    obtain ⟨record, hget, hidentity⟩ := hindexed.sound identity index hindex
    exact ⟨record, List.mem_of_getElem? hget, hidentity⟩
  · rintro ⟨record, hmem, rfl⟩
    obtain ⟨index, hget⟩ := List.mem_iff_getElem?.1 hmem
    rw [hindexed.complete index record hget]
    rfl

variable (qt) in
/-- What storing a record under its index changes. -/
structure Stored (record : CommitTraversalRecord) (state after : PreparationState σ) : Prop where
  indexed : Indexed qt after.plan.records after.indexes
  mem : record ∈ after.plan.records
  cases : ∀ other ∈ after.plan.records, other = record ∨ other ∈ state.plan.records
  indexes : ∀ identity, after.indexes identity = state.indexes identity ∨
    identity = record.node.identity qt
  grows : ∀ identity, (state.indexes identity).isSome → (after.indexes identity).isSome
  get : ∀ index other, state.plan.records[index]? = some other →
    state.indexes (record.node.identity qt) ≠ some index →
    after.plan.records[index]? = some other
  pending : after.pending = state.pending
  visited : after.visited = state.visited
  reads : after.reads = state.reads
  source : after.source = state.source

theorem store_stored (hindexed : Indexed qt state.plan.records state.indexes)
    {record : CommitTraversalRecord} {previous : Option ℕ}
    (hprevious : state.indexes (record.node.identity qt) = previous) :
    Stored qt record state (state.store qt record previous) := by
  cases previous with
  | none =>
      have hnew : ∀ other ∈ state.plan.records,
          other.node.identity qt ≠ record.node.identity qt := by
        intro other hother heq
        have hsome := (isSome_index hindexed).2 ⟨other, hother, heq⟩
        rw [hprevious] at hsome
        cases hsome
      refine ⟨⟨?_, ?_⟩, ?_, ?_, ?_, ?_, ?_, rfl, rfl, rfl, rfl⟩
      · intro index other hget
        dsimp only [store] at hget ⊢
        rw [List.getElem?_append] at hget
        split_ifs at hget with hlt
        · rw [Function.update_of_ne (hnew other (List.mem_of_getElem? hget))]
          exact hindexed.complete index other hget
        · have hlast : index = state.plan.records.length ∧ other = record := by
            obtain ⟨hlength, hother⟩ := List.getElem?_eq_some_iff.1 hget
            rw [List.length_singleton] at hlength
            refine ⟨by omega, ?_⟩
            rw [← hother, List.getElem_singleton]
          rw [hlast.2, Function.update_self, hlast.1]
      · intro identity index hindex
        dsimp only [store] at hindex ⊢
        by_cases hsame : identity = record.node.identity qt
        · rw [hsame, Function.update_self] at hindex
          cases hindex
          exact ⟨record, by simp, hsame.symm⟩
        · rw [Function.update_of_ne hsame] at hindex
          obtain ⟨other, hget, hidentity⟩ := hindexed.sound identity index hindex
          exact ⟨other, List.getElem?_append_left (List.getElem?_eq_some_iff.1 hget).1 ▸ hget,
            hidentity⟩
      · exact List.mem_append_right _ (List.mem_singleton_self record)
      · intro other hother
        rcases List.mem_append.1 hother with hold | hnew
        · exact Or.inr hold
        · exact Or.inl (List.mem_singleton.1 hnew)
      · intro identity
        by_cases hsame : identity = record.node.identity qt
        · exact Or.inr hsame
        · exact Or.inl (Function.update_of_ne hsame _ _)
      · intro identity hsome
        dsimp only [store]
        by_cases hsame : identity = record.node.identity qt
        · rw [hsame, Function.update_self]
          rfl
        · rwa [Function.update_of_ne hsame]
      · intro index other hget _
        dsimp only [store]
        rwa [List.getElem?_append_left (List.getElem?_eq_some_iff.1 hget).1]
  | some index =>
      obtain ⟨old, hold, hidentity⟩ := hindexed.sound _ index hprevious
      -- the node is in the index already, and stays where it is
      have hindexes : (state.store qt record (some index)).indexes = state.indexes := by
        dsimp only [store]
        rw [hold, Option.elim_some, hidentity, Function.update_idem, ← hprevious,
          Function.update_eq_self]
      have hlength := (List.getElem?_eq_some_iff.1 hold).1
      refine ⟨⟨?_, ?_⟩, ?_, ?_, ?_, ?_, ?_, rfl, rfl, rfl, rfl⟩
      · intro other found hget
        rw [hindexes]
        dsimp only [store] at hget
        rw [List.getElem?_set] at hget
        split_ifs at hget with hsame
        · cases hget
          rw [hprevious, hsame]
        · exact hindexed.complete other found hget
      · intro identity other hother
        rw [hindexes] at hother
        obtain ⟨found, hget, hfound⟩ := hindexed.sound identity other hother
        dsimp only [store]
        by_cases hsame : index = other
        · refine ⟨record, ?_, ?_⟩
          · rw [hsame, List.getElem?_set_self (hsame ▸ hlength)]
          · rw [← hidentity, ← hfound]
            rw [hsame, hget] at hold
            cases hold
            rfl
        · exact ⟨found, by rwa [List.getElem?_set_ne hsame], hfound⟩
      · exact List.mem_set hlength record
      · intro other hother
        exact (List.mem_or_eq_of_mem_set hother).symm
      · intro identity
        exact Or.inl (congrFun hindexes identity)
      · intro identity hsome
        rwa [hindexes]
      · intro other found hget hne
        dsimp only [store]
        rwa [List.getElem?_set_ne]
        rintro rfl
        exact hne hprevious

@[simp]
theorem withHistory_node (record : CommitTraversalRecord) :
    (withHistory record).node = record.node := by
  rw [withHistory]
  split_ifs <;> rfl

@[simp]
theorem withHistory_status (record : CommitTraversalRecord) :
    (withHistory record).status = record.status := by
  rw [withHistory]
  split_ifs <;> rfl

theorem remember_stored (hindexed : Indexed qt state.plan.records state.indexes)
    {record : CommitTraversalRecord} {previous : Option ℕ}
    (hprevious : state.indexes (record.node.identity qt) = previous) :
    Stored qt (withHistory record) state (state.remember qt record previous) := by
  have hstored : Stored qt (withHistory record) state (state.store qt (withHistory record) previous) :=
    store_stored hindexed (by rwa [withHistory_node])
  exact ⟨hstored.indexed, hstored.mem, hstored.cases, hstored.indexes, hstored.grows, hstored.get,
    hstored.pending, hstored.visited, hstored.reads, hstored.source⟩

/-- The record that a walk stores for a node. -/
structure Storable (tree : CommitTree qt) (before : List CommitTraversalRecord)
    (current : Option Text) (state : PreparationState σ) (record : CommitTraversalRecord) : Prop where
  known : tree.Known record.node
  outcome : record.status ≠ .failed →
    tree.look record.node = some record.node ∧ record.status = CommitTree.statusOf record.node
  closed : record.status = .succeeded → ∀ child ∈ tree.children record.node,
    state.Accounted qt current child
  free : ∀ (index : ℕ) (old : CommitTraversalRecord),
    state.indexes (record.node.identity qt) = some index → before[index]? = some old →
    old.status = .failed

theorem Walked.remember (hwalked : Walked tree before current state)
    {record : CommitTraversalRecord} (hrecord : Storable tree before current state record)
    {previous : Option ℕ} (hprevious : state.indexes (record.node.identity qt) = previous)
    {next : Option Text}
    (hcurrent : ∀ identity, current = some identity →
      next = some identity ∨ identity = record.node.identity qt) :
    Walked tree before next (state.remember qt record previous) := by
  have hstored := remember_stored hwalked.indexed hprevious
  have hself : ((state.remember qt record previous).indexes (record.node.identity qt)).isSome :=
    (isSome_index hstored.indexed).2 ⟨withHistory record, hstored.mem, by rw [withHistory_node]⟩
  have haccounted : ∀ node, state.Accounted qt current node →
      (state.remember qt record previous).Accounted qt next node := by
    rintro node (hsome | ⟨other, hother, hidentity⟩ | hnow)
    · exact Or.inl (hstored.grows _ hsome)
    · exact Or.inr (Or.inl ⟨other, hstored.pending ▸ hother, hidentity⟩)
    · rcases hcurrent _ hnow with hnext | hrecorded
      · exact Or.inr (Or.inr hnext)
      · rw [Accounted, indexOf, hrecorded]
        exact Or.inl hself
  refine ⟨hstored.indexed, ?_, ?_, ?_, haccounted _ hwalked.rooted, ?_, ?_,
    hstored.reads ▸ hwalked.unread⟩
  · intro other hother
    rcases hstored.cases other hother with rfl | hold
    · rw [withHistory_node]
      exact hrecord.known
    · exact hwalked.known other hold
  · intro other hother
    rcases hstored.cases other hother with rfl | hold
    · rw [withHistory_node, withHistory_status]
      exact hrecord.outcome
    · exact hwalked.outcome other hold
  · intro other hother hsucceeded child hchild
    rcases hstored.cases other hother with rfl | hold
    · rw [withHistory_node] at hchild
      rw [withHistory_status] at hsucceeded
      exact haccounted child (hrecord.closed hsucceeded child hchild)
    · exact haccounted child (hwalked.closed other hold hsucceeded child hchild)
  · intro identity hidentity
    rw [hstored.visited] at hidentity
    rcases hwalked.visited identity hidentity with hsome | hnow
    · exact Or.inl (hstored.grows identity hsome)
    · rcases hcurrent identity hnow with hnext | hrecorded
      · exact Or.inr hnext
      · rw [hrecorded]
        exact Or.inl hself
  · intro index old hold hstatus
    apply hstored.get index old (hwalked.kept index old hold hstatus)
    rw [withHistory_node]
    intro hindex
    exact hstatus (hrecord.free index old hindex hold)

/-! ## Discovering a child -/

/-- A node without a finished record has none in the plan before, either. -/
theorem free_of_unfinished (hwalked : Walked tree before current state) {node : CommitNode}
    (hfinished : state.finished qt node = false) (index : ℕ) (old : CommitTraversalRecord)
    (hindex : state.indexes (node.identity qt) = some index) (hold : before[index]? = some old) :
    old.status = .failed := by
  by_contra hstatus
  have hget := hwalked.kept index old hold hstatus
  rw [finished, recordOf, indexOf, hindex, Option.bind_some, hget, Option.any_some] at hfinished
  simp [hstatus] at hfinished

theorem accounted_of_finished (hindexed : Indexed qt state.plan.records state.indexes)
    {node : CommitNode} (hfinished : state.finished qt node = true) :
    (state.indexOf qt node).isSome := by
  rw [finished, Option.any_eq_true] at hfinished
  obtain ⟨record, hrecord, -⟩ := hfinished
  obtain ⟨hmem, hidentity⟩ := (recordOf_eq_some hindexed).1 hrecord
  exact (isSome_index hindexed).2 ⟨record, hmem, hidentity⟩

variable {source : TraversalSource σ}

/-- A node that a walk takes up: not visited, and without a finished record. -/
structure Fresh (qt : Qt) (state : PreparationState σ) (candidate : CommitNode) : Prop where
  unvisited : candidate.identity qt ∉ state.visited
  unfinished : state.finished qt candidate = false

/-- The records that an inspection alone leads to. -/
inductive Inspected (qt : Qt) (source : TraversalSource σ) (state : PreparationState σ)
    (candidate : CommitNode) : σ → CommitTraversalRecord → Prop
  | failed {answer : Except Thrown (Option CommitNode)} {after : σ} (error : Text)
      (hinspect : source.inspect candidate state.source = (answer, after))
      (hanswer : ∀ node, answer ≠ .ok (some node)) :
      Inspected qt source state candidate after (observeFailure (state.attempt qt candidate) error)
  | seen {node : CommitNode} {after : σ}
      (hinspect : source.inspect candidate state.source = (.ok (some node), after))
      (hleaf : node.skippedReason = [] → node.kind.container = false) :
      Inspected qt source state candidate after { state.attempt qt candidate with
        node := node, status := CommitTree.statusOf node, error := node.skippedReason }

/-- The state in which a child is recorded. -/
def publishing (qt : Qt) (state : PreparationState σ) (after : σ) (candidate : CommitNode)
    (record : CommitTraversalRecord) : PreparationState σ :=
  { state with
    source := after
    visited := record.node.identity qt :: candidate.identity qt :: state.visited }.remember qt
      record (state.indexOf qt candidate)

/-- All that discovering a child can do. -/
inductive Discovery (qt : Qt) (source : TraversalSource σ) (state : PreparationState σ)
    (candidate : CommitNode) : PreparationState σ → Prop
  | skipped (hskip : source.stopRequested state.source = true ∨
      candidate.identity qt ∈ state.visited ∨ state.finished qt candidate = true) :
      Discovery qt source state candidate state
  | kept {node : CommitNode} {after : σ} (hfresh : Fresh qt state candidate)
      (hinspect : source.inspect candidate state.source = (.ok (some node), after)) :
      Discovery qt source state candidate
        { state with source := after, pending := node :: state.pending }
  | stopped {answer : Except Thrown (Option CommitNode)} {after : σ}
      (hinspect : source.inspect candidate state.source = (answer, after))
      (hstop : source.stopRequested after = true) :
      Discovery qt source state candidate { state with source := after }
  | recorded {after : σ} {record : CommitTraversalRecord} (hfresh : Fresh qt state candidate)
      (hrecord : Inspected qt source state candidate after record) :
      Discovery qt source state candidate (state.publishing qt after candidate record)

theorem discover_discovery (state : PreparationState σ) (candidate : CommitNode) :
    Discovery qt source state candidate (state.discover qt source candidate) := by
  rw [discover]
  by_cases hskip : (source.stopRequested state.source ||
      state.visited.contains (candidate.identity qt) || state.finished qt candidate) = true
  · rw [if_pos hskip]
    simp only [Bool.or_eq_true, List.contains_iff_mem, or_assoc] at hskip
    exact .skipped hskip
  rw [if_neg hskip]
  simp only [Bool.or_eq_true, not_or, Bool.not_eq_true, List.contains_iff_mem] at hskip
  have hfresh : Fresh qt state candidate := by
    refine ⟨fun hmem => ?_, hskip.2⟩
    simp [hmem] at hskip
  obtain ⟨answer, after, hinspect⟩ :
      ∃ answer after, source.inspect candidate state.source = (answer, after) := ⟨_, _, rfl⟩
  rw [hinspect]
  dsimp only
  cases answer with
  | error thrown =>
      dsimp only
      by_cases hstop : source.stopRequested after = true
      · rw [if_pos hstop]
        exact .stopped hinspect hstop
      · rw [if_neg hstop]
        exact .recorded hfresh (.failed thrown.text hinspect (by simp))
  | ok seen? =>
      cases seen? with
      | none =>
          dsimp only
          by_cases hstop : source.stopRequested after = true
          · rw [if_pos hstop]
            exact .stopped hinspect hstop
          · rw [if_neg hstop]
            exact .recorded hfresh (.failed missingTarget hinspect (by simp))
      | some node =>
          dsimp only
          by_cases hcontainer : (node.kind.container && node.skippedReason.isEmpty) = true
          · rw [if_pos hcontainer]
            exact .kept hfresh hinspect
          · rw [if_neg hcontainer]
            by_cases hstop : source.stopRequested after = true
            · rw [if_pos hstop]
              exact .stopped hinspect hstop
            · rw [if_neg hstop]
              refine .recorded hfresh (.seen hinspect fun hskip => ?_)
              rw [hskip] at hcontainer
              simpa using hcontainer

/-- The invariant moves to a state with the same records that accounts for as much. -/
theorem Walked.transfer (hwalked : Walked tree before current state) {next : Option Text}
    {after : PreparationState σ} (hrecords : after.plan.records = state.plan.records)
    (hindexes : after.indexes = state.indexes)
    (haccounted : ∀ node, state.Accounted qt current node → after.Accounted qt next node)
    (hvisited : ∀ identity ∈ after.visited,
      (state.indexes identity).isSome ∨ next = some identity)
    (hreads : ∀ node ∈ after.reads, node ∈ state.reads ∨ ∀ record ∈ before,
      record.status ≠ .failed → record.node.identity qt ≠ node.identity qt) :
    Walked tree before next after := by
  refine ⟨?_, ?_, ?_, ?_, haccounted _ hwalked.rooted, ?_, ?_, ?_⟩
  · rw [hrecords, hindexes]
    exact hwalked.indexed
  · rw [hrecords]
    exact hwalked.known
  · rw [hrecords]
    exact hwalked.outcome
  · rw [hrecords]
    intro record hrecord hsucceeded child hchild
    exact haccounted child (hwalked.closed record hrecord hsucceeded child hchild)
  · rw [hindexes]
    exact hvisited
  · rw [hrecords]
    exact hwalked.kept
  · intro node hnode
    rcases hreads node hnode with hold | hnew
    · exact hwalked.unread node hold
    · exact hnew

/-- A walk does not lose its invariant by keeping more nodes for later. -/
theorem Walked.extend (hwalked : Walked tree before current state)
    {after : PreparationState σ} (hrecords : after.plan.records = state.plan.records)
    (hindexes : after.indexes = state.indexes) (hpending : state.pending ⊆ after.pending)
    (hvisited : ∀ identity ∈ after.visited, identity ∈ state.visited ∨
      (state.indexes identity).isSome)
    (hreads : ∀ node ∈ after.reads, node ∈ state.reads ∨ ∀ record ∈ before,
      record.status ≠ .failed → record.node.identity qt ≠ node.identity qt) :
    Walked tree before current after := by
  refine hwalked.transfer hrecords hindexes ?_ ?_ hreads
  · rintro node (hsome | ⟨other, hother, hidentity⟩ | hnow)
    · rw [Accounted, indexOf, hindexes]
      exact Or.inl hsome
    · exact Or.inr (Or.inl ⟨other, hpending hother, hidentity⟩)
    · exact Or.inr (Or.inr hnow)
  · intro identity hidentity
    rcases hvisited identity hidentity with hold | hsome
    · exact hwalked.visited identity hold
    · exact Or.inl hsome

/-- The node taken from `pending` becomes the one that is examined. -/
theorem Walked.take {candidate : CommitNode}
    (hwalked : Walked tree before none { state with pending := candidate :: state.pending })
    {after : PreparationState σ} (hrecords : after.plan.records = state.plan.records)
    (hindexes : after.indexes = state.indexes) (hpending : after.pending = state.pending)
    (hvisited : ∀ identity ∈ after.visited,
      identity = candidate.identity qt ∨ identity ∈ state.visited)
    (hreads : after.reads = state.reads) :
    Walked tree before (some (candidate.identity qt)) after := by
  refine hwalked.transfer hrecords hindexes ?_ ?_ (fun node hnode => Or.inl (hreads ▸ hnode))
  · rintro node (hsome | ⟨other, hother, hidentity⟩ | hnow)
    · rw [Accounted, indexOf, hindexes]
      exact Or.inl hsome
    · rcases List.mem_cons.1 hother with rfl | hother
      · exact Or.inr (Or.inr (congrArg some hidentity))
      · exact Or.inr (Or.inl ⟨other, hpending ▸ hother, hidentity⟩)
    · cases hnow
  · intro identity hidentity
    rcases hvisited identity hidentity with hnow | hold
    · exact Or.inr (congrArg some hnow.symm)
    · exact Or.inl ((hwalked.visited identity hold).resolve_right (by simp))

/-- A node with a record need not be taken up. -/
theorem Walked.drop {candidate : CommitNode}
    (hwalked : Walked tree before none { state with pending := candidate :: state.pending })
    (hrecorded : (state.indexOf qt candidate).isSome) : Walked tree before none state := by
  refine hwalked.transfer rfl rfl ?_ hwalked.visited fun _ => Or.inl
  rintro node (hsome | ⟨other, hother, hidentity⟩ | hnow)
  · exact Or.inl hsome
  · rcases List.mem_cons.1 hother with rfl | hother
    · rw [Accounted, indexOf, ← hidentity]
      exact Or.inl hrecorded
    · exact Or.inr (Or.inl ⟨other, hother, hidentity⟩)
  · cases hnow

theorem Inspected.identity (hsource : FailsTransiently tree source) {candidate : CommitNode}
    {after : σ} {record : CommitTraversalRecord}
    (hrecord : Inspected qt source state candidate after record) :
    record.node.identity qt = candidate.identity qt := by
  cases hrecord with
  | failed error hinspect hanswer => rfl
  | seen hinspect hleaf =>
      exact tree.look_identity _ _ (hsource.inspect _ _ _ (congrArg Prod.fst hinspect))

/-- What an inspection alone leads to may be stored. -/
theorem Inspected.storable (hsource : FailsTransiently tree source)
    (hwalked : Walked tree before current state) {candidate : CommitNode}
    (hcandidate : tree.Known candidate) (hfinished : state.finished qt candidate = false)
    {after : σ} {record : CommitTraversalRecord}
    (hrecord : Inspected qt source state candidate after record) :
    Storable tree before current state record := by
  have hidentity := hrecord.identity hsource
  have hfree : ∀ (index : ℕ) (old : CommitTraversalRecord),
      state.indexes (record.node.identity qt) = some index → before[index]? = some old →
      old.status = .failed := by
    rw [hidentity]
    exact free_of_unfinished hwalked hfinished
  cases hrecord with
  | failed error hinspect hanswer =>
      exact ⟨hcandidate, fun hstatus => absurd rfl hstatus,
        fun hstatus => (by cases hstatus), hfree⟩
  | @seen node after hinspect hleaf =>
      have hlook := hsource.inspect _ _ _ (congrArg Prod.fst hinspect)
      refine ⟨hcandidate.seen hlook, fun _ => ⟨tree.look_look _ _ hlook, rfl⟩, ?_, hfree⟩
      -- a node that is recorded here without a skip is no container
      intro hsucceeded child hchild
      dsimp only [CommitTree.statusOf] at hsucceeded hchild
      split_ifs at hsucceeded with hskip
      rw [tree.leaf node (hleaf (List.isEmpty_iff.1 hskip))] at hchild
      cases hchild

theorem publishing_stored (hwalked : Walked tree before current state) {candidate : CommitNode}
    {record : CommitTraversalRecord} (hidentity : record.node.identity qt = candidate.identity qt)
    (after : σ) :
    Stored qt (withHistory record)
      { state with
        source := after
        visited := record.node.identity qt :: candidate.identity qt :: state.visited }
      (state.publishing qt after candidate record) := by
  apply remember_stored
  · exact hwalked.indexed
  · exact congrArg state.indexes hidentity

theorem publishing_walked (hwalked : Walked tree before current state) {candidate : CommitNode}
    {record : CommitTraversalRecord} (hidentity : record.node.identity qt = candidate.identity qt)
    (hrecord : Storable tree before current state record) (after : σ) :
    Walked tree before current (state.publishing qt after candidate record) ∧
      (state.publishing qt after candidate record).Accounted qt current candidate := by
  have hobserved : Walked tree before current { state with source := after } :=
    hwalked.extend rfl rfl (List.Subset.refl _) (fun _ => Or.inl) fun _ => Or.inl
  have hstored := publishing_stored hwalked hidentity after
  have hprevious : state.indexes (record.node.identity qt) = state.indexOf qt candidate :=
    congrArg state.indexes hidentity
  have hremembered := hobserved.remember ⟨hrecord.known, hrecord.outcome, hrecord.closed, hrecord.free⟩
    hprevious fun _ hcurrent => Or.inl hcurrent
  have hself : ((state.publishing qt after candidate record).indexes
      (candidate.identity qt)).isSome :=
    (isSome_index hstored.indexed).2
      ⟨withHistory record, hstored.mem, by rw [withHistory_node, hidentity]⟩
  have hvisited : state.publishing qt after candidate record =
      { { state with source := after }.remember qt record (state.indexOf qt candidate) with
        visited := record.node.identity qt :: candidate.identity qt :: state.visited } := by
    rw [publishing]
    cases state.indexOf qt candidate <;> rfl
  refine ⟨?_, Or.inl hself⟩
  rw [hvisited] at hself ⊢
  refine hremembered.extend rfl rfl (List.Subset.refl _) ?_ fun _ => Or.inl
  intro identity hmem
  rcases List.mem_cons.1 hmem with rfl | hmem
  · rw [hidentity]
    exact Or.inr hself
  · rcases List.mem_cons.1 hmem with rfl | hold
    · exact Or.inr hself
    · rw [(remember_stored hobserved.indexed hprevious).visited]
      exact Or.inl hold

theorem discover_stop (hstop : source.stopRequested state.source = true) (candidate : CommitNode) :
    source.stopRequested (state.discover qt source candidate).source = true := by
  rw [discover, if_pos]
  · exact hstop
  · rw [hstop]
    rfl

/-- A child that is not skipped at once is kept or recorded. -/
theorem discover_walked (hsource : FailsTransiently tree source)
    (hwalked : Walked tree before current state) {candidate : CommitNode}
    (hcandidate : tree.Known candidate)
    (hrunning : source.stopRequested (state.discover qt source candidate).source = false) :
    Walked tree before current (state.discover qt source candidate) ∧
      (state.discover qt source candidate).Accounted qt current candidate := by
  have hstart : ¬source.stopRequested state.source = true := by
    intro hstop
    rw [discover_stop hstop] at hrunning
    cases hrunning
  have hdiscovery := @discover_discovery qt σ source state candidate
  generalize state.discover qt source candidate = result at hdiscovery hrunning ⊢
  cases hdiscovery with
  | skipped hskip =>
      refine ⟨hwalked, ?_⟩
      rcases hskip with hstop | hvisited | hfinished
      · exact absurd hstop hstart
      · rcases hwalked.visited _ hvisited with hsome | hnow
        · exact Or.inl hsome
        · exact Or.inr (Or.inr hnow)
      · exact Or.inl (accounted_of_finished hwalked.indexed hfinished)
  | @kept node after hfresh hinspect =>
      have hlook := hsource.inspect _ _ _ (congrArg Prod.fst hinspect)
      exact ⟨hwalked.extend rfl rfl (List.subset_cons_self _ _) (fun _ => Or.inl) fun _ => Or.inl,
        Or.inr (Or.inl ⟨node, List.mem_cons_self, tree.look_identity _ _ hlook⟩)⟩
  | stopped hinspect hstop =>
      rw [hstop] at hrunning
      cases hrunning
  | @recorded after record hfresh hrecord =>
      exact publishing_walked hwalked (hrecord.identity hsource)
        (hrecord.storable hsource hwalked hcandidate hfresh.unfinished) after

/-- What discovering keeps for later are nodes of the tree. -/
theorem discover_known (hsource : FailsTransiently tree source)
    (hpending : PendingKnown tree state) {candidate : CommitNode}
    (hcandidate : tree.Known candidate) :
    PendingKnown tree (state.discover qt source candidate) := by
  have hdiscovery := @discover_discovery qt σ source state candidate
  generalize state.discover qt source candidate = result at hdiscovery ⊢
  cases hdiscovery with
  | skipped hskip => exact hpending
  | @kept node after hfresh hinspect =>
      intro other hother
      rcases List.mem_cons.1 hother with rfl | hold
      · exact hcandidate.seen (hsource.inspect _ _ _ (congrArg Prod.fst hinspect))
      · exact hpending other hold
  | stopped hinspect hstop => exact hpending
  | @recorded after record hfresh hrecord =>
      have hsame : (state.publishing qt after candidate record).pending = state.pending := by
        rw [publishing]
        cases state.indexOf qt candidate <;> rfl
      intro other hother
      rw [hsame] at hother
      exact hpending other hother

/-- What discovering a node leaves to the node that is read meanwhile. -/
theorem discover_frozen (hsource : FailsTransiently tree source)
    (hwalked : Walked tree before current state) (candidate : CommitNode) {identity : Text}
    (hvisited : identity ∈ state.visited) :
    identity ∈ (state.discover qt source candidate).visited ∧
      (state.discover qt source candidate).indexes identity = state.indexes identity ∧
      (state.discover qt source candidate).reads = state.reads := by
  have hdiscovery := @discover_discovery qt σ source state candidate
  generalize state.discover qt source candidate = result at hdiscovery ⊢
  cases hdiscovery with
  | skipped hskip => exact ⟨hvisited, rfl, rfl⟩
  | kept hfresh hinspect => exact ⟨hvisited, rfl, rfl⟩
  | stopped hinspect hstop => exact ⟨hvisited, rfl, rfl⟩
  | @recorded after record hfresh hrecord =>
      have hidentity := hrecord.identity hsource
      have hstored := publishing_stored hwalked hidentity after
      refine ⟨?_, ?_, hstored.reads⟩
      · rw [hstored.visited]
        exact List.mem_cons_of_mem _ (List.mem_cons_of_mem _ hvisited)
      · rcases hstored.indexes identity with hsame | hself
        · exact hsame
        · rw [withHistory_node, hidentity] at hself
          exact absurd (hself ▸ hvisited) hfresh.unvisited

theorem discover_accounted (hsource : FailsTransiently tree source)
    (hwalked : Walked tree before current state) (candidate : CommitNode) {node : CommitNode}
    (haccounted : state.Accounted qt current node) :
    (state.discover qt source candidate).Accounted qt current node := by
  have hdiscovery := @discover_discovery qt σ source state candidate
  generalize state.discover qt source candidate = result at hdiscovery ⊢
  cases hdiscovery with
  | skipped hskip => exact haccounted
  | kept hfresh hinspect =>
      refine haccounted.imp id (Or.imp ?_ id)
      rintro ⟨other, hother, hidentity⟩
      exact ⟨other, List.mem_cons_of_mem _ hother, hidentity⟩
  | stopped hinspect hstop => exact haccounted
  | @recorded after record hfresh hrecord =>
      have hstored := publishing_stored hwalked (hrecord.identity hsource) after
      refine haccounted.imp (hstored.grows _) (Or.imp ?_ id)
      rintro ⟨other, hother, hidentity⟩
      exact ⟨other, hstored.pending ▸ hother, hidentity⟩

/-! ## Reading a node -/

theorem foldl_discover_stop (nodes : List CommitNode)
    (hstop : source.stopRequested state.source = true) :
    source.stopRequested (nodes.foldl (discover qt source) state).source = true := by
  induction nodes generalizing state with
  | nil => exact hstop
  | cons node rest ih => exact ih (discover_stop hstop node)

theorem foldl_discover_known (hsource : FailsTransiently tree source) (nodes : List CommitNode)
    (hnodes : ∀ node ∈ nodes, tree.Known node) (hpending : PendingKnown tree state) :
    PendingKnown tree (nodes.foldl (discover qt source) state) := by
  induction nodes generalizing state with
  | nil => exact hpending
  | cons node rest ih =>
      exact ih (fun other hother => hnodes other (List.mem_cons_of_mem _ hother))
        (discover_known hsource hpending (hnodes node List.mem_cons_self))

/-- What the walk over the children of a node leads to. -/
structure WalkedChildren (tree : CommitTree qt) (before : List CommitTraversalRecord)
    (identity : Text) (state : PreparationState σ) (nodes : List CommitNode)
    (after : PreparationState σ) : Prop where
  walked : Walked tree before (some identity) after
  accounted : ∀ node, node ∈ nodes ∨ state.Accounted qt (some identity) node →
    after.Accounted qt (some identity) node
  indexes : after.indexes identity = state.indexes identity
  visited : state.visited ⊆ after.visited

theorem foldl_discover_walked (hsource : FailsTransiently tree source) {identity : Text}
    (nodes : List CommitNode) (hnodes : ∀ node ∈ nodes, tree.Known node)
    (hwalked : Walked tree before (some identity) state) (hvisited : identity ∈ state.visited)
    (hrunning : source.stopRequested (nodes.foldl (discover qt source) state).source = false) :
    WalkedChildren tree before identity state nodes (nodes.foldl (discover qt source) state) := by
  induction nodes generalizing state with
  | nil => exact ⟨hwalked, fun node h => h.resolve_left (by simp), rfl, List.Subset.refl _⟩
  | cons node rest ih =>
      rw [List.foldl_cons] at hrunning ⊢
      have hnode : source.stopRequested (state.discover qt source node).source = false := by
        by_contra hstop
        rw [Bool.not_eq_false] at hstop
        rw [foldl_discover_stop rest hstop] at hrunning
        cases hrunning
      obtain ⟨hnext, hself⟩ :=
        discover_walked hsource hwalked (hnodes node List.mem_cons_self) hnode
      obtain ⟨hseen, hindexes, -⟩ := discover_frozen hsource hwalked node hvisited
      have hrest := ih (fun other hother => hnodes other (List.mem_cons_of_mem _ hother)) hnext hseen
        hrunning
      refine ⟨hrest.walked, ?_, hrest.indexes.trans hindexes,
        fun other hother => hrest.visited (discover_frozen hsource hwalked node hother).1⟩
      rintro other (hmem | hold)
      · rcases List.mem_cons.1 hmem with rfl | hmem
        · exact hrest.accounted other (Or.inr hself)
        · exact hrest.accounted other (Or.inl hmem)
      · exact hrest.accounted other (Or.inr (discover_accounted hsource hwalked node hold))

theorem noteTarget_records (target node : CommitNode) (plan : CommitPlan) :
    (noteTarget qt target node plan).records = plan.records := by
  rw [noteTarget]
  split_ifs <;> rfl

/-- The record of a read: it has succeeded if the read reports nothing. -/
theorem readNode_spec (state : PreparationState σ) (node : CommitNode)
    (record : CommitTraversalRecord) :
    (state.readNode qt source node record).1.node = record.node ∧
      ((state.readNode qt source node record).1.status = .failed ∨
        (state.readNode qt source node record).1.status = .succeeded ∧
          (source.read node state.source).1.result = .ok []) ∧
      (state.readNode qt source node record).2 =
        (source.read node state.source).1.published.foldl (discover qt source)
          { state with
            source := (source.read node state.source).2, reads := state.reads ++ [node] } := by
  rw [readNode]
  cases hresult : (source.read node state.source).1.result with
  | error thrown => exact ⟨rfl, Or.inl rfl, rfl⟩
  | ok error =>
      refine ⟨rfl, ?_, rfl⟩
      cases error with
      | nil => exact Or.inr ⟨rfl, rfl⟩
      | cons c rest => exact Or.inl rfl

/-! ## One round -/

/-- All that examining a node can do. -/
inductive Examination (qt : Qt) (source : TraversalSource σ) (target : CommitNode)
    (state : PreparationState σ) (candidate : CommitNode) :
    CommitTraversalRecord × PreparationState σ → Prop
  | failed {answer : Except Thrown (Option CommitNode)} {after : σ} (error : Text)
      (hinspect : source.inspect candidate state.source = (answer, after))
      (hanswer : ∀ node, answer ≠ .ok (some node)) :
      Examination qt source target state candidate
        (observeFailure (state.attempt qt candidate) error,
          { state with visited := candidate.identity qt :: state.visited, source := after })
  | skipped {node : CommitNode} {after : σ}
      (hinspect : source.inspect candidate state.source = (.ok (some node), after))
      (hskip : node.skippedReason ≠ []) :
      Examination qt source target state candidate
        ({ state.attempt qt candidate with
            node := node, status := .skipped, error := node.skippedReason },
          { state with
            visited := node.identity qt :: candidate.identity qt :: state.visited
            plan := noteTarget qt target node state.plan
            source := after })
  | read {node : CommitNode} {after : σ}
      (hinspect : source.inspect candidate state.source = (.ok (some node), after))
      (hskip : node.skippedReason = []) :
      Examination qt source target state candidate
        ({ state with
            visited := node.identity qt :: candidate.identity qt :: state.visited
            plan := noteTarget qt target node state.plan
            source := after }.readNode qt source node
          { state.attempt qt candidate with node := node })

theorem examine_examination (target : CommitNode) (state : PreparationState σ)
    (candidate : CommitNode) :
    Examination qt source target state candidate (state.examine qt source target candidate) := by
  obtain ⟨answer, after, hinspect⟩ :
      ∃ answer after, source.inspect candidate state.source = (answer, after) := ⟨_, _, rfl⟩
  rw [examine, hinspect]
  cases answer with
  | error thrown => exact .failed thrown.text hinspect (by simp)
  | ok seen? =>
      cases seen? with
      | none => exact .failed missingTarget hinspect (by simp)
      | some node =>
          dsimp only
          by_cases hskip : node.skippedReason = []
          · rw [if_neg (by simp [hskip])]
            exact .read hinspect hskip
          · rw [if_pos (by simpa using hskip)]
            exact .skipped hinspect hskip

/-- What a round that is not stopped leads to. -/
structure Visited (tree : CommitTree qt) (before : List CommitTraversalRecord)
    (state : PreparationState σ) (candidate : CommitNode) (after : PreparationState σ) : Prop where
  walked : Walked tree before none after
  known : PendingKnown tree after
  progress : after = state ∨ candidate.identity qt ∉ state.visited ∧
    candidate.identity qt ∈ after.visited ∧ state.visited ⊆ after.visited

/-- What the examination of a node leads to, if it is not stopped. -/
structure Examined (tree : CommitTree qt) (before : List CommitTraversalRecord)
    (state : PreparationState σ) (candidate : CommitNode)
    (result : CommitTraversalRecord × PreparationState σ) : Prop where
  walked : Walked tree before (some (candidate.identity qt)) result.2
  storable : Storable tree before (some (candidate.identity qt)) result.2 result.1
  identity : result.1.node.identity qt = candidate.identity qt
  indexes : result.2.indexes (candidate.identity qt) = state.indexes (candidate.identity qt)
  known : PendingKnown tree result.2
  self : candidate.identity qt ∈ result.2.visited
  visited : state.visited ⊆ result.2.visited

theorem examine_examined (hsource : FailsTransiently tree source) {candidate : CommitNode}
    (hwalked : Walked tree before none { state with pending := candidate :: state.pending })
    (hcandidate : tree.Known candidate) (hpending : PendingKnown tree state)
    (hfinished : state.finished qt candidate = false) (target : CommitNode)
    (hrunning : source.stopRequested (state.examine qt source target candidate).2.source = false) :
    Examined tree before state candidate (state.examine qt source target candidate) := by
  have hfree : ∀ (index : ℕ) (old : CommitTraversalRecord),
      state.indexes (candidate.identity qt) = some index → before[index]? = some old →
      old.status = .failed := free_of_unfinished hwalked hfinished
  have hexamination := @examine_examination qt σ source target state candidate
  generalize state.examine qt source target candidate = result at hexamination hrunning ⊢
  cases hexamination with
  | failed error hinspect hanswer =>
      refine ⟨hwalked.take rfl rfl rfl ?_ rfl, ?_, rfl, rfl, hpending, List.mem_cons_self,
        List.subset_cons_self _ _⟩
      · intro identity hmem
        exact List.mem_cons.1 hmem
      · exact ⟨hcandidate, fun hstatus => absurd rfl hstatus, fun hstatus => (by cases hstatus), hfree⟩
  | @skipped node after hinspect hskip =>
      have hlook := hsource.inspect _ _ _ (congrArg Prod.fst hinspect)
      have hidentity := tree.look_identity _ _ hlook
      refine ⟨hwalked.take (noteTarget_records _ _ _) rfl rfl ?_ rfl, ?_, hidentity, rfl, hpending,
        List.mem_cons_of_mem _ List.mem_cons_self, ?_⟩
      · intro identity hmem
        rw [hidentity] at hmem
        simpa using hmem
      · refine ⟨hcandidate.seen hlook, fun _ => ⟨tree.look_look _ _ hlook, ?_⟩,
          fun hstatus => (by cases hstatus), ?_⟩
        · rw [CommitTree.statusOf, if_neg (by simpa using hskip)]
        · dsimp only
          rw [hidentity]
          exact hfree
      · intro identity hold
        exact List.mem_cons_of_mem _ (List.mem_cons_of_mem _ hold)
  | @read node after hinspect hskip =>
      have hlook := hsource.inspect _ _ _ (congrArg Prod.fst hinspect)
      have hidentity := tree.look_identity _ _ hlook
      set opened : PreparationState σ := { state with
        visited := node.identity qt :: candidate.identity qt :: state.visited
        plan := noteTarget qt target node state.plan
        source := after } with hopened
      have hself : candidate.identity qt ∈ opened.visited :=
        List.mem_cons_of_mem _ List.mem_cons_self
      have htaken : Walked tree before (some (candidate.identity qt)) opened := by
        refine hwalked.take (noteTarget_records _ _ _) rfl rfl ?_ rfl
        intro identity hmem
        rw [hopened, hidentity] at hmem
        simpa using hmem
      obtain ⟨hnode, hstatus, hafter⟩ :=
        @readNode_spec qt σ source opened node { state.attempt qt candidate with node := node }
      dsimp only at hnode
      have hread : Walked tree before (some (candidate.identity qt)) { opened with
          source := (source.read node opened.source).2, reads := opened.reads ++ [node] } := by
        refine htaken.extend rfl rfl (List.Subset.refl _) (fun _ => Or.inl) ?_
        intro other hother
        rcases List.mem_append.1 hother with hold | hnew
        · exact Or.inl hold
        · -- a node that was finished before is not examined, so it is not read
          right
          rw [List.mem_singleton.1 hnew, hidentity]
          intro record hrecord hdone hsame
          obtain ⟨index, hget⟩ := List.mem_iff_getElem?.1 hrecord
          have hindex := hwalked.indexed.complete index record (hwalked.kept index record hget hdone)
          rw [hsame] at hindex
          exact hdone (hfree index record hindex hget)
      have hchildren : ∀ child ∈ (source.read node opened.source).1.published, tree.Known child :=
        fun child hchild => hcandidate.child hlook hskip (hsource.published _ _ hchild)
      rw [hafter] at hrunning
      have hwalk := foldl_discover_walked hsource _ hchildren hread hself hrunning
      have hvisited : opened.visited ⊆ (opened.readNode qt source node
          { state.attempt qt candidate with node := node }).2.visited := by
        rw [hafter]
        exact hwalk.visited
      refine ⟨?_, ?_, ?_, ?_, ?_, hvisited hself, ?_⟩
      · rw [hafter]
        exact hwalk.walked
      · refine ⟨?_, ?_, ?_, ?_⟩
        · rw [hnode]
          exact hcandidate.seen hlook
        · intro hdone
          rw [hnode, CommitTree.statusOf, if_pos (by simpa using hskip)]
          exact ⟨tree.look_look _ _ hlook, (hstatus.resolve_left hdone).1⟩
        · intro hsucceeded child hchild
          rw [hnode] at hchild
          have hresult : (source.read node opened.source).1.result = .ok [] := by
            rcases hstatus with hfailed | ⟨-, hresult⟩
            · rw [hfailed] at hsucceeded
              cases hsucceeded
            · exact hresult
          rw [hafter]
          exact hwalk.accounted child (Or.inl (hsource.complete _ _ hresult hchild))
        · rw [hnode, hidentity, hafter, hwalk.indexes]
          exact hfree
      · rw [hnode]
        exact hidentity
      · rw [hafter, hwalk.indexes]
      · rw [hafter]
        exact foldl_discover_known hsource _ hchildren hpending
      · intro identity hold
        exact hvisited (List.mem_cons_of_mem _ (List.mem_cons_of_mem _ hold))

theorem visit_visited (hsource : FailsTransiently tree source) {candidate : CommitNode}
    (hwalked : Walked tree before none { state with pending := candidate :: state.pending })
    (hcandidate : tree.Known candidate) (hpending : PendingKnown tree state) (target : CommitNode)
    (hrunning : source.stopRequested (state.visit qt source target candidate).source = false) :
    Visited tree before state candidate (state.visit qt source target candidate) := by
  rw [visit] at hrunning ⊢
  by_cases hskip : (state.visited.contains (candidate.identity qt) ||
      state.finished qt candidate) = true
  · rw [if_pos hskip]
    refine ⟨hwalked.drop ?_, hpending, Or.inl rfl⟩
    rw [Bool.or_eq_true, List.contains_iff_mem] at hskip
    rcases hskip with hvisited | hfinished
    · exact (hwalked.visited _ hvisited).resolve_right (by simp)
    · exact accounted_of_finished hwalked.indexed hfinished
  rw [if_neg hskip] at hrunning ⊢
  simp only [Bool.or_eq_true, not_or, Bool.not_eq_true, List.contains_iff_mem] at hskip
  have hexamined : source.stopRequested (state.examine qt source target candidate).2.source = false := by
    by_contra hstop
    rw [Bool.not_eq_false] at hstop
    dsimp only at hrunning
    rw [if_pos hstop, hstop] at hrunning
    cases hrunning
  have hresult :=
    examine_examined hsource hwalked hcandidate hpending hskip.2 target hexamined
  dsimp only
  rw [if_neg (by rw [hexamined]; decide)]
  have hprevious : (state.examine qt source target candidate).2.indexes
      ((state.examine qt source target candidate).1.node.identity qt) =
        state.indexOf qt candidate := by
    rw [hresult.identity, hresult.indexes, indexOf]
  have hstored := remember_stored hresult.walked.indexed hprevious
  refine ⟨hresult.walked.remember hresult.storable hprevious ?_, ?_, Or.inr ⟨hskip.1, ?_, ?_⟩⟩
  · intro identity hcurrent
    exact Or.inr (by rw [hresult.identity]; exact (Option.some.inj hcurrent).symm)
  · rw [PendingKnown, hstored.pending]
    exact hresult.known
  · rw [hstored.visited]
    exact hresult.self
  · rw [hstored.visited]
    exact hresult.visited

/-! ## The loop -/

theorem drain_stop (hstop : source.stopRequested state.source = true) (target : CommitNode)
    (fuel : ℕ) : state.drain qt source target fuel = some state := by
  cases fuel with
  | zero => rw [drain, hstop, Bool.or_true, if_pos rfl]
  | succ fuel =>
      rw [drain]
      cases state.pending with
      | nil => rfl
      | cons candidate rest =>
          dsimp only
          rw [if_pos hstop]

/-- The whole loop keeps the invariant and leaves nothing pending. -/
theorem drain_walked (hsource : FailsTransiently tree source) (target : CommitNode) {fuel : ℕ}
    (hwalked : Walked tree before none state) (hpending : PendingKnown tree state)
    {final : PreparationState σ} (hfinal : state.drain qt source target fuel = some final)
    (hrunning : source.stopRequested final.source = false) :
    Walked tree before none final ∧ final.pending = [] := by
  induction fuel generalizing state with
  | zero =>
      rw [drain] at hfinal
      split_ifs at hfinal with hdone
      cases hfinal
      rw [hrunning, Bool.or_false] at hdone
      exact ⟨hwalked, List.isEmpty_iff.1 hdone⟩
  | succ fuel ih =>
      rw [drain] at hfinal
      cases hnodes : state.pending with
      | nil =>
          rw [hnodes] at hfinal
          cases hfinal
          exact ⟨hwalked, hnodes⟩
      | cons candidate rest =>
          rw [hnodes] at hfinal
          dsimp only at hfinal
          split_ifs at hfinal with hstop
          · cases hfinal
            rw [hrunning] at hstop
            cases hstop
          · have hvisit : source.stopRequested
                ({ state with pending := rest }.visit qt source target candidate).source = false := by
              by_contra hstopped
              rw [Bool.not_eq_false] at hstopped
              rw [drain_stop hstopped] at hfinal
              cases hfinal
              rw [hrunning] at hstopped
              cases hstopped
            have htaken : Walked tree before none
                { { state with pending := rest } with pending := candidate :: rest } := by
              rw [← hnodes]
              exact hwalked
            rw [PendingKnown, hnodes] at hpending
            have hvisited := visit_visited hsource htaken (hpending candidate List.mem_cons_self)
              (fun node hnode => hpending node (List.mem_cons_of_mem _ hnode)) target hvisit
            exact ih hvisited.walked hvisited.known hfinal

/-- The identities of the tree that have not been visited. -/
def unvisited (tree : CommitTree qt) (state : PreparationState σ) : Finset Text :=
  tree.identities.toFinset \ state.visited.toFinset

theorem card_unvisited_lt {after : PreparationState σ} {identity : Text}
    (hidentity : identity ∈ tree.identities) (hnew : identity ∉ state.visited)
    (hvisited : identity ∈ after.visited) (hsubset : state.visited ⊆ after.visited) :
    (unvisited tree after).card < (unvisited tree state).card := by
  apply Finset.card_lt_card
  rw [Finset.ssubset_iff_of_subset]
  · refine ⟨identity, ?_, ?_⟩
    · simp [unvisited, hidentity, hnew]
    · simp [unvisited, hvisited]
  · intro other hother
    simp only [unvisited, Finset.mem_sdiff, List.mem_toFinset] at hother ⊢
    exact ⟨hother.1, fun hold => hother.2 (hsubset hold)⟩

/-- The loop ends: each round visits a new node of the tree or leaves a pending one. -/
theorem drain_terminates (hsource : FailsTransiently tree source) (target : CommitNode)
    (hwalked : Walked tree before none state) (hpending : PendingKnown tree state) :
    ∃ fuel final, state.drain qt source target fuel = some final := by
  induction hcard : (unvisited tree state).card using Nat.strong_induction_on generalizing state with
  | _ card ih =>
  induction hnodes : state.pending generalizing state with
  | nil => exact ⟨0, state, by rw [drain, hnodes, List.isEmpty_nil, Bool.true_or, if_pos rfl]⟩
  | cons candidate rest ihrest =>
      by_cases hstop : source.stopRequested state.source = true
      · exact ⟨0, state, drain_stop hstop target 0⟩
      have hround : ∀ fuel, state.drain qt source target (fuel + 1) =
          drain qt source target fuel
            ({ state with pending := rest }.visit qt source target candidate) := by
        intro fuel
        rw [drain, hnodes]
        dsimp only
        rw [if_neg hstop]
      by_cases hvisit : source.stopRequested
          ({ state with pending := rest }.visit qt source target candidate).source = true
      · exact ⟨1, _, (hround 0).trans (drain_stop hvisit target 0)⟩
      have htaken : Walked tree before none
          { { state with pending := rest } with pending := candidate :: rest } := by
        rw [← hnodes]
        exact hwalked
      rw [PendingKnown, hnodes] at hpending
      have hvisited := visit_visited hsource htaken (hpending candidate List.mem_cons_self)
        (fun node hnode => hpending node (List.mem_cons_of_mem _ hnode)) target
        (Bool.eq_false_iff.2 hvisit)
      rcases hvisited.progress with hsame | ⟨hnew, hself, hsubset⟩
      · rw [hsame] at hround
        have hwalkedRest : Walked tree before none { state with pending := rest } :=
          hsame ▸ hvisited.walked
        obtain ⟨fuel, final, hfinal⟩ := ihrest hwalkedRest
          (fun node hnode => hpending node (List.mem_cons_of_mem _ hnode)) hcard rfl
        exact ⟨fuel + 1, final, (hround fuel).trans hfinal⟩
      · have hknown := (hpending candidate List.mem_cons_self).identity_mem
        have hlt := card_unvisited_lt hknown hnew hself hsubset
        obtain ⟨fuel, final, hfinal⟩ := ih _ (hcard ▸ hlt) hvisited.walked hvisited.known rfl
        exact ⟨fuel + 1, final, (hround fuel).trans hfinal⟩

end PreparationState

/-! ## Plans between two calls -/

/-- What the records of a plan keep from one call to the next. -/
structure Resumable (tree : CommitTree qt) (records : List CommitTraversalRecord) : Prop where
  nodup : (records.map fun record => record.node.identity qt).Nodup
  known : ∀ record ∈ records, tree.Known record.node
  outcome : ∀ record ∈ records, record.status ≠ .failed →
    tree.look record.node = some record.node ∧ record.status = CommitTree.statusOf record.node
  closed : ∀ record ∈ records, record.status = .succeeded →
    ∀ child ∈ tree.children record.node,
      ∃ other ∈ records, other.node.identity qt = child.identity qt
  rooted : records ≠ [] → ∃ other ∈ records, other.node.identity qt = tree.root.identity qt

theorem resumable_nil (tree : CommitTree qt) : Resumable tree [] := by
  refine ⟨List.nodup_nil, ?_, ?_, ?_, fun hne => absurd rfl hne⟩
  all_goals
    intro record hrecord
    cases hrecord

theorem Indexed.nodup {records : List CommitTraversalRecord} {indexes : Text → Option ℕ}
    (hindexed : Indexed qt records indexes) :
    (records.map fun record => record.node.identity qt).Nodup := by
  rw [List.nodup_iff_getElem?_ne_getElem?]
  intro first second hlt hlength hsame
  rw [List.length_map] at hlength
  have hfirst : first < records.length := Nat.lt_trans hlt hlength
  rw [List.getElem?_map, List.getElem?_map, List.getElem?_eq_getElem hfirst,
    List.getElem?_eq_getElem hlength] at hsame
  have hidentity : records[first].node.identity qt = records[second].node.identity qt :=
    Option.some.inj hsame
  have hone := hindexed.complete first _ (List.getElem?_eq_getElem hfirst)
  have hother := hindexed.complete second _ (List.getElem?_eq_getElem hlength)
  rw [hidentity, hother] at hone
  exact Nat.ne_of_gt hlt (Option.some.inj hone)

/-- The index that the loop over the records builds, from any place on. -/
theorem foldl_insertIndex {records : List CommitTraversalRecord}
    (hnodup : (records.map fun record => record.node.identity qt).Nodup) (offset : ℕ)
    (indexes : Text → Option ℕ) :
    (∀ (index : ℕ) (record : CommitTraversalRecord), records[index]? = some record →
      (records.zipIdx offset).foldl (PreparationState.insertIndex qt) indexes
        (record.node.identity qt) = some (offset + index)) ∧
    ∀ identity, identity ∉ (records.map fun record => record.node.identity qt) →
      (records.zipIdx offset).foldl (PreparationState.insertIndex qt) indexes identity =
        indexes identity := by
  induction records generalizing offset indexes with
  | nil =>
      refine ⟨?_, fun _ _ => rfl⟩
      intro index record hget
      cases hget
  | cons first rest ih =>
      rw [List.map_cons, List.nodup_cons] at hnodup
      obtain ⟨hinside, houtside⟩ := ih hnodup.2 (offset + 1)
        (PreparationState.insertIndex qt indexes (first, offset))
      rw [List.zipIdx_cons, List.foldl_cons]
      constructor
      · intro index record hget
        cases index with
        | zero =>
            rw [List.getElem?_cons_zero] at hget
            cases hget
            rw [houtside _ hnodup.1, PreparationState.insertIndex, Function.update_self,
              Nat.add_zero]
        | succ index =>
            rw [List.getElem?_cons_succ] at hget
            rw [hinside index record hget, Nat.add_assoc, Nat.add_comm 1]
      · intro identity hidentity
        rw [List.map_cons, List.mem_cons, not_or] at hidentity
        rw [houtside identity hidentity.2, PreparationState.insertIndex,
          Function.update_of_ne hidentity.1]

theorem indexed_zipIdx {records : List CommitTraversalRecord}
    (hnodup : (records.map fun record => record.node.identity qt).Nodup) :
    Indexed qt records
      (records.zipIdx.foldl (PreparationState.insertIndex qt) fun _ => none) := by
  obtain ⟨hinside, houtside⟩ := foldl_insertIndex hnodup 0 fun _ => none
  refine ⟨fun index record hget => by rw [hinside index record hget, Nat.zero_add], ?_⟩
  intro identity index hindex
  by_cases hmem : identity ∈ records.map fun record => record.node.identity qt
  · obtain ⟨record, hrecord, rfl⟩ := List.mem_map.1 hmem
    obtain ⟨place, hplace⟩ := List.mem_iff_getElem?.1 hrecord
    rw [hinside place record hplace, Nat.zero_add] at hindex
    cases hindex
    exact ⟨record, hplace, rfl⟩
  · rw [houtside identity hmem] at hindex
    cases hindex

section Calls

variable {σ : Type*} {tree : CommitTree qt} {source : TraversalSource σ}
  {records : List CommitTraversalRecord}

open PreparationState

theorem exists_record_of_accounted {state : PreparationState σ}
    (hindexed : Indexed qt state.plan.records state.indexes) (hpending : state.pending = [])
    {node : CommitNode} (haccounted : state.Accounted qt none node) :
    ∃ other ∈ state.plan.records, other.node.identity qt = node.identity qt := by
  rcases haccounted with hsome | ⟨other, hother, -⟩ | hnow
  · exact (isSome_index hindexed).1 hsome
  · rw [hpending] at hother
    cases hother
  · cases hnow

theorem PreparationState.Walked.resumable {state : PreparationState σ}
    (hwalked : Walked tree records none state) (hpending : state.pending = []) :
    Resumable tree state.plan.records ∧ state.plan.records ≠ [] := by
  obtain ⟨root, hroot, hidentity⟩ :=
    exists_record_of_accounted hwalked.indexed hpending hwalked.rooted
  refine ⟨⟨hwalked.indexed.nodup, hwalked.known, hwalked.outcome, ?_,
    fun _ => ⟨root, hroot, hidentity⟩⟩, List.ne_nil_of_mem hroot⟩
  intro record hrecord hsucceeded child hchild
  exact exists_record_of_accounted hwalked.indexed hpending
    (hwalked.closed record hrecord hsucceeded child hchild)

/-- A call begins with the invariant: what is not recorded is taken up. -/
theorem start_walked {request : CommitRequest} {plan : CommitPlan}
    (hplan : Resumable tree plan.records)
    (hroot : plan.records = [] → request.target = tree.root) (state : σ) :
    Walked tree plan.records none (start qt request plan state) ∧
      PendingKnown tree (start qt request plan state) := by
  have hindexed : Indexed qt plan.records (start qt request plan state).indexes :=
    indexed_zipIdx hplan.nodup
  have hrecorded : ∀ node : CommitNode,
      (∃ other ∈ plan.records, other.node.identity qt = node.identity qt) →
      (start qt request plan state).Accounted qt none node :=
    fun node hother => Or.inl ((@isSome_index qt σ (start qt request plan state) hindexed _).2 hother)
  constructor
  · refine ⟨hindexed, hplan.known, hplan.outcome, ?_, ?_, ?_, fun _ _ hget _ => hget, ?_⟩
    · intro record hrecord hsucceeded child hchild
      exact hrecorded child (hplan.closed record hrecord hsucceeded child hchild)
    · by_cases hempty : plan.records = []
      · refine Or.inr (Or.inl ⟨tree.root, ?_, rfl⟩)
        rw [start]
        dsimp only
        rw [hempty, List.isEmpty_nil, if_pos rfl, hroot hempty]
        exact List.mem_singleton_self _
      · exact hrecorded _ (hplan.rooted hempty)
    · intro identity hidentity
      cases hidentity
    · intro node hnode
      cases hnode
  · intro node hnode
    rw [start] at hnode
    dsimp only at hnode
    split_ifs at hnode with hempty
    · rw [List.mem_singleton.1 hnode, hroot (List.isEmpty_iff.1 hempty)]
      exact CommitTree.known_of_reached .root
    · obtain ⟨record, hrecord, rfl⟩ := List.mem_map.1 (List.mem_reverse.1 hnode)
      exact hplan.known record (List.mem_of_mem_filter hrecord)

/-- What a call that is not canceled does to the records of a plan. -/
structure Prepared (tree : CommitTree qt) (records : List CommitTraversalRecord)
    (prepared : Preparation) : Prop where
  resumable : Resumable tree prepared.plan.records
  nonempty : prepared.plan.records ≠ []
  kept : ∀ record ∈ records, record.status ≠ .failed → record ∈ prepared.plan.records
  unread : ∀ node ∈ prepared.reads, ∀ record ∈ records, record.status ≠ .failed →
    record.node.identity qt ≠ node.identity qt

theorem prepareCommit_prepared (hsource : FailsTransiently tree source) {fuel : ℕ}
    {request : CommitRequest} {plan : CommitPlan} (hplan : Resumable tree plan.records)
    (hroot : plan.records = [] → request.target = tree.root) {state : σ} {prepared : Preparation}
    (hprepared : prepareCommit qt source fuel request plan state = some prepared)
    (huncanceled : prepared.plan.canceled = false) :
    Prepared tree plan.records prepared := by
  rw [prepareCommit, Option.map_eq_some_iff] at hprepared
  obtain ⟨final, hfinal, rfl⟩ := hprepared
  obtain ⟨hwalked, hpending⟩ := start_walked hplan hroot state
  obtain ⟨hend, hnone⟩ := drain_walked hsource _ hwalked hpending hfinal huncanceled
  obtain ⟨hresumable, hnonempty⟩ := hend.resumable hnone
  refine ⟨hresumable, hnonempty, ?_, hend.unread⟩
  intro record hrecord hstatus
  obtain ⟨index, hget⟩ := List.mem_iff_getElem?.1 hrecord
  exact List.mem_of_getElem? (hend.kept index record hget hstatus)

/-- Every call ends: the loop needs a finite amount of fuel. -/
theorem exists_prepareCommit (hsource : FailsTransiently tree source) {request : CommitRequest}
    {plan : CommitPlan} (hplan : Resumable tree plan.records)
    (hroot : plan.records = [] → request.target = tree.root) (state : σ) :
    ∃ fuel prepared, prepareCommit qt source fuel request plan state = some prepared := by
  obtain ⟨hwalked, hpending⟩ := start_walked hplan hroot state
  obtain ⟨fuel, final, hfinal⟩ := drain_terminates hsource request.target hwalked hpending
  exact ⟨fuel, _, by rw [prepareCommit, hfinal]; rfl⟩

/-! ## A walk without failures -/

theorem store_mem {state : PreparationState σ} {record other : CommitTraversalRecord}
    {previous : Option ℕ} (hother : other ∈ (state.store qt record previous).plan.records) :
    other = record ∨ other ∈ state.plan.records := by
  cases previous with
  | none =>
      rcases List.mem_append.1 hother with hold | hnew
      · exact Or.inr hold
      · exact Or.inl (List.mem_singleton.1 hnew)
  | some index => exact (List.mem_or_eq_of_mem_set hother).symm

def NoFailure (state : PreparationState σ) : Prop :=
  ∀ record ∈ state.plan.records, record.status ≠ .failed

theorem remember_noFailure {state : PreparationState σ} (hstate : NoFailure state)
    {record : CommitTraversalRecord} (hrecord : record.status ≠ .failed) (previous : Option ℕ) :
    NoFailure (state.remember qt record previous) := by
  intro other hother
  rcases store_mem hother with rfl | hold
  · rwa [withHistory_status]
  · exact hstate other hold

theorem statusOf_ne_failed (node : CommitNode) : CommitTree.statusOf node ≠ .failed := by
  rw [CommitTree.statusOf]
  split_ifs <;> decide

/-- Every published node can be inspected. -/
def CommitTree.Complete (tree : CommitTree qt) : Prop :=
  ∀ node, tree.Reached node → ∃ seen, tree.look node = some seen

theorem CommitTree.Known.exists_seen (hcomplete : tree.Complete) {node : CommitNode}
    (hnode : tree.Known node) : ∃ seen, tree.look node = some seen := by
  obtain ⟨published, hpublished, -, hlook⟩ := hnode
  rw [hlook]
  exact hcomplete published hpublished

/-- The tree itself never fails to answer for one of its nodes. -/
theorem not_failed (hcomplete : tree.Complete) {node : CommitNode} (hnode : tree.Known node)
    {answer : Except Thrown (Option CommitNode)} {before after : Unit}
    (hinspect : tree.source.inspect node before = (answer, after))
    (hanswer : ∀ seen, answer ≠ .ok (some seen)) : False := by
  obtain ⟨seen, hseen⟩ := hnode.exists_seen hcomplete
  apply hanswer seen
  rw [← hseen]
  exact (congrArg Prod.fst hinspect).symm

theorem discover_noFailure (hcomplete : tree.Complete) {state : PreparationState Unit}
    (hstate : NoFailure state) {candidate : CommitNode} (hcandidate : tree.Known candidate) :
    NoFailure (state.discover qt tree.source candidate) := by
  have hdiscovery := @discover_discovery qt Unit tree.source state candidate
  generalize state.discover qt tree.source candidate = result at hdiscovery ⊢
  cases hdiscovery with
  | skipped hskip => exact hstate
  | kept hfresh hinspect => exact hstate
  | stopped hinspect hstop => exact hstate
  | recorded hfresh hrecord =>
      cases hrecord with
      | failed error hinspect hanswer =>
          exact (not_failed hcomplete hcandidate hinspect hanswer).elim
      | @seen node after hinspect hleaf =>
          rw [publishing]
          apply remember_noFailure
          · exact hstate
          · exact statusOf_ne_failed node

theorem foldl_discover_noFailure (hcomplete : tree.Complete) (nodes : List CommitNode)
    (hnodes : ∀ node ∈ nodes, tree.Known node) {state : PreparationState Unit}
    (hstate : NoFailure state) : NoFailure (nodes.foldl (discover qt tree.source) state) := by
  induction nodes generalizing state with
  | nil => exact hstate
  | cons node rest ih =>
      exact ih (fun other hother => hnodes other (List.mem_cons_of_mem _ hother))
        (discover_noFailure hcomplete hstate (hnodes node List.mem_cons_self))

theorem visit_noFailure (hcomplete : tree.Complete) {state : PreparationState Unit}
    (hstate : NoFailure state) {candidate : CommitNode} (hcandidate : tree.Known candidate)
    (target : CommitNode) : NoFailure (state.visit qt tree.source target candidate) := by
  have hexamined : (state.examine qt tree.source target candidate).1.status ≠ .failed ∧
      NoFailure (state.examine qt tree.source target candidate).2 := by
    have hexamination := @examine_examination qt Unit tree.source target state candidate
    generalize state.examine qt tree.source target candidate = result at hexamination ⊢
    cases hexamination with
    | failed error hinspect hanswer =>
        exact (not_failed hcomplete hcandidate hinspect hanswer).elim
    | @skipped node after hinspect hskip =>
        refine ⟨by simp, ?_⟩
        intro record hrecord
        rw [noteTarget_records] at hrecord
        exact hstate record hrecord
    | @read node after hinspect hskip =>
        have hlook : tree.look candidate = some node := by
          injection congrArg Prod.fst hinspect
        refine ⟨fun hfailed => (by cases hfailed), ?_⟩
        rw [(readNode_spec _ _ _).2.2]
        apply foldl_discover_noFailure hcomplete
        · exact fun child hchild => hcandidate.child hlook hskip hchild
        · intro record hrecord
          rw [noteTarget_records] at hrecord
          exact hstate record hrecord
  rw [visit]
  split_ifs
  · exact hstate
  · exact remember_noFailure hexamined.2 hexamined.1 _

theorem drain_noFailure (hcomplete : tree.Complete) (target : CommitNode) {fuel : ℕ}
    {state : PreparationState Unit} (hwalked : Walked tree records none state)
    (hpending : PendingKnown tree state) (hstate : NoFailure state)
    {final : PreparationState Unit}
    (hfinal : state.drain qt tree.source target fuel = some final) : NoFailure final := by
  induction fuel generalizing state with
  | zero =>
      rw [drain] at hfinal
      split_ifs at hfinal
      cases hfinal
      exact hstate
  | succ fuel ih =>
      rw [drain] at hfinal
      cases hnodes : state.pending with
      | nil =>
          rw [hnodes] at hfinal
          cases hfinal
          exact hstate
      | cons candidate rest =>
          rw [hnodes] at hfinal
          have htaken : Walked tree records none
              { { state with pending := rest } with pending := candidate :: rest } := by
            rw [← hnodes]
            exact hwalked
          rw [PendingKnown, hnodes] at hpending
          have hcandidate := hpending candidate List.mem_cons_self
          have hvisited := visit_visited tree.source_failsTransiently htaken hcandidate
            (fun node hnode => hpending node (List.mem_cons_of_mem _ hnode)) target rfl
          have hrest : NoFailure { state with pending := rest } := hstate
          exact ih hvisited.walked hvisited.known (visit_noFailure hcomplete hrest hcandidate target)
            hfinal

/-! ## Retries -/

/-- The records show every node of the tree as it is. -/
theorem Resumable.covers (hrecords : Resumable tree records) (hnonempty : records ≠ [])
    (hdone : ∀ record ∈ records, record.status ≠ .failed) {node : CommitNode}
    (hnode : tree.Reached node) :
    ∃ record ∈ records, tree.look node = some record.node ∧
      record.status = CommitTree.statusOf record.node := by
  have hsame : ∀ {published : CommitNode}, tree.Reached published →
      (∃ record ∈ records, record.node.identity qt = published.identity qt) →
      ∃ record ∈ records, tree.look published = some record.node ∧
        record.status = CommitTree.statusOf record.node := by
    rintro published hpublished ⟨record, hrecord, hidentity⟩
    obtain ⟨hlook, hstatus⟩ := hrecords.outcome record hrecord (hdone record hrecord)
    obtain ⟨other, hother, hotherIdentity, hotherLook⟩ := hrecords.known record hrecord
    refine ⟨record, hrecord, ?_, hstatus⟩
    rw [tree.unique published other hpublished hother (hidentity.symm.trans hotherIdentity),
      ← hotherLook, hlook]
  induction hnode with
  | root => exact hsame .root (hrecords.rooted hnonempty)
  | @child parent seen child hparent hseen hskip hchild ih =>
      obtain ⟨record, hrecord, hlook, hstatus⟩ := ih
      have hnode : record.node = seen := by
        rw [hlook] at hseen
        exact Option.some.inj hseen
      apply hsame (.child hparent hseen hskip hchild)
      apply hrecords.closed record hrecord
      · rw [hstatus, hnode, CommitTree.statusOf, if_pos (by simpa using hskip)]
      · rwa [hnode]

def entryOf (qt : Qt) (record : CommitTraversalRecord) :
    Text × CommitTargetKind × TraversalStatus :=
  (record.node.identity qt, record.node.kind, record.status)

/-- A plan without failures records exactly what the tree holds. -/
theorem Resumable.entries (hrecords : Resumable tree records) (hnonempty : records ≠ [])
    (hdone : ∀ record ∈ records, record.status ≠ .failed)
    (entry : Text × CommitTargetKind × TraversalStatus) :
    entry ∈ records.map (entryOf qt) ↔ tree.Holds entry := by
  constructor
  · intro hentry
    obtain ⟨record, hrecord, rfl⟩ := List.mem_map.1 hentry
    obtain ⟨hlook, hstatus⟩ := hrecords.outcome record hrecord (hdone record hrecord)
    obtain ⟨published, hpublished, -, hsame⟩ := hrecords.known record hrecord
    exact ⟨published, record.node, hpublished, hsame ▸ hlook, by rw [entryOf, hstatus]⟩
  · rintro ⟨node, seen, hnode, hseen, rfl⟩
    obtain ⟨record, hrecord, hlook, hstatus⟩ := hrecords.covers hnonempty hdone hnode
    rw [hseen] at hlook
    cases hlook
    exact List.mem_map.2 ⟨record, hrecord, by rw [entryOf, hstatus]⟩

end Calls

/-- One call after the other on the same plan.  Each call has its own request and
finds the source in a state of its own. -/
def prepareCalls (qt : Qt) {σ : Type*} (source : TraversalSource σ) (fuel : ℕ) :
    CommitPlan → List (CommitRequest × σ) → Option (List Preparation)
  | _, [] => some []
  | plan, (request, state) :: rest =>
      (prepareCommit qt source fuel request plan state).bind fun prepared =>
        (prepareCalls qt source fuel prepared.plan rest).map (prepared :: ·)

section Retries

variable {σ : Type*} {tree : CommitTree qt} {source : TraversalSource σ}

/-- What the later calls on a plan do to it, and what they do not read. -/
structure Retried (tree : CommitTree qt) (records : List CommitTraversalRecord)
    (calls : List Preparation) : Prop where
  resumable : ∀ call ∈ calls, Resumable tree call.plan.records ∧ call.plan.records ≠ []
  unread : ∀ call ∈ calls, ∀ node ∈ call.reads, ∀ record ∈ records, record.status ≠ .failed →
    record.node.identity qt ≠ node.identity qt
  once : calls.Pairwise fun earlier later => ∀ node ∈ later.reads,
    ∀ record ∈ earlier.plan.records, record.status ≠ .failed →
      record.node.identity qt ≠ node.identity qt

theorem prepareCalls_retried (hsource : FailsTransiently tree source) {fuel : ℕ}
    {plan : CommitPlan} {requests : List (CommitRequest × σ)} {calls : List Preparation}
    (hplan : Resumable tree plan.records)
    (hroot : plan.records = [] → ∀ first ∈ requests.head?, first.1.target = tree.root)
    (hcalls : prepareCalls qt source fuel plan requests = some calls)
    (huncanceled : ∀ call ∈ calls, call.plan.canceled = false) :
    Retried tree plan.records calls := by
  induction requests generalizing plan calls with
  | nil =>
      cases hcalls
      refine ⟨?_, ?_, List.Pairwise.nil⟩
      all_goals
        intro call hcall
        cases hcall
  | cons first rest ih =>
      obtain ⟨request, state⟩ := first
      rw [prepareCalls, Option.bind_eq_some_iff] at hcalls
      obtain ⟨prepared, hprepared, hrest⟩ := hcalls
      obtain ⟨later, hlater, rfl⟩ := Option.map_eq_some_iff.1 hrest
      have hfirst := prepareCommit_prepared hsource hplan
        (fun hempty => hroot hempty _ rfl) hprepared (huncanceled _ List.mem_cons_self)
      have hretried := ih hfirst.resumable (fun hempty => absurd hempty hfirst.nonempty) hlater
        fun call hcall => huncanceled call (List.mem_cons_of_mem _ hcall)
      refine ⟨?_, ?_, List.Pairwise.cons ?_ hretried.once⟩
      · intro call hcall
        rcases List.mem_cons.1 hcall with rfl | hcall
        · exact ⟨hfirst.resumable, hfirst.nonempty⟩
        · exact hretried.resumable call hcall
      · intro call hcall node hnode record hrecord hstatus
        rcases List.mem_cons.1 hcall with rfl | hcall
        · exact hfirst.unread node hnode record hrecord hstatus
        · exact hretried.unread call hcall node hnode record (hfirst.kept record hrecord hstatus)
            hstatus
      · intro call hcall
        exact hretried.unread call hcall

/-- However often a preparation is resumed: if the last call leaves no failure, the
plan records what one walk without failures records, no identity twice, and no
node that a call has finished is read by a later one. -/
theorem prepareCommit_retries_agree (hsource : FailsTransiently tree source) {fuel : ℕ}
    {request : CommitRequest} (hroot : request.target = tree.root) {state : σ}
    {later : List (CommitRequest × σ)} {calls : List Preparation}
    (hcalls : prepareCalls qt source fuel { request := request } ((request, state) :: later) =
      some calls)
    (huncanceled : ∀ call ∈ calls, call.plan.canceled = false) {last : Preparation}
    (hlast : calls.getLast? = some last)
    (hdone : ∀ record ∈ last.plan.records, record.status ≠ .failed) :
    (last.plan.records.map fun record => record.node.identity qt).Nodup ∧
      (∃ fuel full, prepareCommit qt tree.source fuel request { request := request } () = some full ∧
        (full.plan.records.map fun record => record.node.identity qt).Nodup ∧
        ∀ entry, entry ∈ last.plan.records.map (entryOf qt) ↔
          entry ∈ full.plan.records.map (entryOf qt)) ∧
      calls.Pairwise fun earlier later => ∀ node ∈ later.reads,
        ∀ record ∈ earlier.plan.records, record.status ≠ .failed →
          record.node.identity qt ≠ node.identity qt := by
  have hretried := prepareCalls_retried hsource (resumable_nil tree)
    (fun _ _ hfirst => by cases hfirst; exact hroot) hcalls huncanceled
  obtain ⟨hresumable, hnonempty⟩ := hretried.resumable last (List.mem_of_getLast? hlast)
  refine ⟨hresumable.nodup, ?_, hretried.once⟩
  have hcomplete : tree.Complete := by
    intro node hnode
    obtain ⟨record, -, hlook, -⟩ := hresumable.covers hnonempty hdone hnode
    exact ⟨record.node, hlook⟩
  have hempty : Resumable tree ({ request := request } : CommitPlan).records := resumable_nil tree
  obtain ⟨fullFuel, full, hfull⟩ :=
    exists_prepareCommit tree.source_failsTransiently hempty (fun _ => hroot) ()
  refine ⟨fullFuel, full, hfull, ?_⟩
  have huncanceledFull : full.plan.canceled = false := by
    rw [prepareCommit, Option.map_eq_some_iff] at hfull
    obtain ⟨final, -, rfl⟩ := hfull
    rfl
  have hprepared := prepareCommit_prepared tree.source_failsTransiently hempty (fun _ => hroot)
    hfull huncanceledFull
  have hdoneFull : ∀ record ∈ full.plan.records, record.status ≠ .failed := by
    obtain ⟨hwalked, hpending⟩ := start_walked hempty (fun _ => hroot) ()
    rw [prepareCommit, Option.map_eq_some_iff] at hfull
    obtain ⟨final, hfinal, rfl⟩ := hfull
    apply drain_noFailure hcomplete _ hwalked hpending _ hfinal
    intro record hrecord
    cases hrecord
  refine ⟨hprepared.resumable.nodup, fun entry => ?_⟩
  rw [hresumable.entries hnonempty hdone,
    hprepared.resumable.entries hprepared.nonempty hdoneFull]

end Retries

/-! ## A folder whose file cannot be inspected at first -/

namespace RetriedFolder

def folder : CommitNode := { kind := .folder, path := "C:\\T".toList }

def file : CommitNode := { path := "C:\\T\\a".toList }

def shape : CommitTreeShape where
  root := folder
  look := some
  children node := if node = folder then [file] else []

theorem reached {node : CommitNode} (hnode : shape.Reached node) : node = folder ∨ node = file := by
  induction hnode with
  | root => exact Or.inl rfl
  | @child parent seen child hparent hseen hskip hchild ih =>
      dsimp only [shape] at hchild
      split_ifs at hchild
      · exact Or.inr (List.mem_singleton.1 hchild)
      · cases hchild

def tree : CommitTree Qt.ascii where
  toCommitTreeShape := shape
  identities := [folder.identity Qt.ascii, file.identity Qt.ascii]
  look_identity node seen hseen := by
    cases hseen
    rfl
  look_look node seen hseen := by
    cases hseen
    rfl
  leaf node hleaf := by
    dsimp only [shape]
    rw [if_neg]
    rintro rfl
    cases hleaf
  unique first second hfirst hsecond hsame := by
    rcases reached hfirst with rfl | rfl <;> rcases reached hsecond with rfl | rfl
    · rfl
    · exact absurd hsame (by decide)
    · exact absurd hsame (by decide)
    · rfl
  finite node hnode := by
    rcases reached hnode with rfl | rfl
    · exact List.mem_cons_self
    · exact List.mem_cons_of_mem _ List.mem_cons_self

/-- The state tells whether the file can be inspected. -/
def source : TraversalSource Bool where
  inspect node readable :=
    (if node = file ∧ !readable then .error (.standard ⟨"denied".toList, none⟩) else .ok (some node),
      readable)
  read node readable := (⟨shape.children node, .ok []⟩, readable)
  stopRequested _ := false
  stop_inspect _ _ hstop := hstop
  stop_read _ _ hstop := hstop

theorem source_failsTransiently : FailsTransiently tree source where
  inspect node readable seen hseen := by
    dsimp only [source] at hseen
    split_ifs at hseen
    cases hseen
    rfl
  published node readable := List.Subset.refl _
  complete node readable _ := List.Subset.refl _

def request : CommitRequest := { target := folder }

def calls : List Preparation :=
  (prepareCalls Qt.ascii source 2 { request := request } [(request, false), (request, true)]).getD []

def last : Preparation :=
  calls.getLast?.getD { plan := { request := request }, published := [], reads := [] }

end RetriedFolder

open RetriedFolder in
theorem prepareCommit_retries_agree_folder :
    last.plan.records.length = 2 ∧
      (last.plan.records.map fun record => record.node.identity Qt.ascii).Nodup :=
  ⟨by decide +kernel, (prepareCommit_retries_agree source_failsTransiently rfl
    (show prepareCalls Qt.ascii source 2 { request := request }
      [(request, false), (request, true)] = some calls by decide +kernel)
    (by decide +kernel) (show calls.getLast? = some last by decide +kernel)
    (by decide +kernel)).1⟩

end UwfManager
