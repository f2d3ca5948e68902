import UwfManager.Paths.PathPolicy
import Mathlib.Data.List.Sort

/-!
# The plan of a commit

A plan records what the traversal of a file or registry tree has found.  The
targets of a deletion are drawn from these records: a folder or a key is
deleted only if nothing at or below it was skipped or has failed, and the
values of a key that is deleted are deleted with it.
-/

namespace UwfManager

inductive CommitTargetKind where
  | file
  | folder
  | registryKey
  | registryValue
  deriving DecidableEq, Repr

inductive CommitOperation where
  | persist
  | deleteAndPersist
  deriving DecidableEq, Repr

structure CommitNode where
  kind : CommitTargetKind := .file
  path : Text
  valueName : Text := []
  skippedReason : Text := []
  deriving DecidableEq

structure CommitRequest where
  operation : CommitOperation := .persist
  target : CommitNode
  deriving DecidableEq

inductive TraversalStatus where
  | succeeded
  | failed
  | skipped
  deriving DecidableEq, Repr

structure CommitTraversalRecord where
  node : CommitNode
  status : TraversalStatus := .succeeded
  error : Text := []
  errorHistory : List Text := []
  attempts : ℕ := 0
  deriving DecidableEq

structure CommitPlan where
  request : CommitRequest
  records : List CommitTraversalRecord := []
  canceled : Bool := false
  deriving DecidableEq

def CommitTargetKind.container : CommitTargetKind → Bool
  | .folder | .registryKey => true
  | .file | .registryValue => false

namespace CommitPlan

/-! ## Paths that must not be deleted -/

/-- What precedes the last backslash. -/
def beforeLastBackslash (path : Text) : Option Text :=
  match path.reverse.dropWhile (· ≠ '\\') with
  | [] => none
  | _ :: front => some front.reverse

/-- The path and its ancestors.  The root of a drive keeps its backslash.  Each
round shortens the path, so that its length is fuel enough. -/
def blockedFrom : ℕ → Text → List Text
  | 0, _ => []
  | fuel + 1, path =>
      if path.isEmpty then []
      else
        path :: match beforeLastBackslash path with
          | none => []
          | some front =>
              if front.length = 2 ∧ path[1]? = some ':' then [path.take 3]
              else blockedFrom fuel front

def blockedPaths (path : Text) : List Text := blockedFrom path.length path

variable (qt : Qt)

/-- The folded paths at or above a record that did not succeed. -/
def blocked (plan : CommitPlan) : List Text :=
  (plan.records.filter fun record => record.status ≠ .succeeded).flatMap fun record =>
    blockedPaths (qt.toCaseFolded record.node.path)

/-- The folded paths of the keys that are deleted with their values. -/
def deletedKeys (plan : CommitPlan) : List Text :=
  (plan.records.filter fun record =>
    record.status = .succeeded ∧ record.node.kind = .registryKey ∧
      qt.toCaseFolded record.node.path ∉ plan.blocked qt).map fun record =>
        qt.toCaseFolded record.node.path

/-- Whether the node of a record that succeeded is a target of the deletion. -/
def deletes (plan : CommitPlan) (node : CommitNode) : Bool :=
  if plan.request.target.kind = .registryKey ∧ node.kind = .registryValue ∧
      (qt.toCaseFolded node.path ∈ plan.deletedKeys qt ∨ node.valueName = []) then false
  else !(node.kind.container && decide (qt.toCaseFolded node.path ∈ plan.blocked qt))

/-- Deeper targets come before the ones that contain them. -/
def targets (plan : CommitPlan) : List CommitNode :=
  if plan.canceled then []
  else
    let succeeded := (plan.records.filter fun record => record.status = .succeeded).map (·.node)
    match plan.request.operation with
    | .persist => succeeded.filter fun node => !node.kind.container
    | .deleteAndPersist =>
        (succeeded.filter (plan.deletes qt)).insertionSort fun first second =>
          second.path.count '\\' ≤ first.path.count '\\'

/-! ## Ancestors -/

theorem beforeLastBackslash_eq_none {path : Text} (hnone : beforeLastBackslash path = none) :
    '\\' ∉ path := by
  rw [beforeLastBackslash] at hnone
  cases hdrop : path.reverse.dropWhile (· ≠ '\\') with
  | nil =>
      intro hmem
      have hall := List.dropWhile_eq_nil_iff.1 hdrop '\\' (List.mem_reverse.2 hmem)
      simp at hall
  | cons c front =>
      rw [hdrop] at hnone
      cases hnone

theorem beforeLastBackslash_eq_some {path front : Text}
    (hsome : beforeLastBackslash path = some front) :
    ∃ tail, path = front ++ '\\' :: tail ∧ '\\' ∉ tail := by
  rw [beforeLastBackslash] at hsome
  cases hdrop : path.reverse.dropWhile (· ≠ '\\') with
  | nil =>
      rw [hdrop] at hsome
      cases hsome
  | cons c before =>
      rw [hdrop] at hsome
      have hhead : c = '\\' := by
        have hkept := List.head?_dropWhile_not (· ≠ '\\') path.reverse
        rw [hdrop] at hkept
        simpa using hkept
      refine ⟨(path.reverse.takeWhile (· ≠ '\\')).reverse, ?_, ?_⟩
      · calc
          path = (path.reverse.takeWhile (· ≠ '\\') ++ path.reverse.dropWhile (· ≠ '\\')).reverse := by
            rw [List.takeWhile_append_dropWhile, List.reverse_reverse]
          _ = front ++ '\\' :: (path.reverse.takeWhile (· ≠ '\\')).reverse := by
            rw [hdrop, hhead, ← Option.some.inj hsome]
            simp
      · intro hmem
        have htaken := List.mem_takeWhile_imp (List.mem_reverse.1 hmem)
        simp at htaken

/-- A path is its drive alone: one character and a colon. -/
def IsBareDrive (path : Text) : Prop := path.length = 2 ∧ path[1]? = some ':'

instance (path : Text) : Decidable (IsBareDrive path) := inferInstanceAs (Decidable (_ ∧ _))

theorem mem_blockedFrom_self {fuel : ℕ} {path : Text} (hpath : path ≠ [])
    (hfuel : path.length ≤ fuel) : path ∈ blockedFrom fuel path := by
  cases fuel with
  | zero => exact absurd (List.length_eq_zero_iff.1 (Nat.le_zero.1 hfuel)) hpath
  | succ fuel =>
      rw [blockedFrom, if_neg (by simpa using hpath)]
      exact List.mem_cons_self

/-- Each ancestor but a bare drive is visited: the loop goes from one backslash
to the one before it. -/
theorem mem_blockedFrom {fuel : ℕ} {path parent rest : Text} (hpath : path = parent ++ '\\' :: rest)
    (hparent : parent ≠ []) (hdrive : ¬IsBareDrive parent) (hfuel : path.length ≤ fuel) :
    parent ∈ blockedFrom fuel path := by
  induction fuel generalizing path rest with
  | zero => simp [hpath] at hfuel
  | succ fuel ih =>
      have hmem : '\\' ∈ path := by simp [hpath]
      rw [blockedFrom, if_neg (by simp [hpath])]
      apply List.mem_cons_of_mem
      cases hfront : beforeLastBackslash path with
      | none => exact absurd hmem (beforeLastBackslash_eq_none hfront)
      | some front =>
          obtain ⟨tail, htail, hfree⟩ := beforeLastBackslash_eq_some hfront
          have hshort : front.length ≤ fuel := by
            rw [htail, List.length_append, List.length_cons] at hfuel
            omega
          have hsplit := hpath.symm.trans htail
          rcases List.append_eq_append_iff.1 hsplit with ⟨inner, hinner, hrest⟩ | ⟨inner, hinner, hrest⟩
          · cases inner with
            | nil =>
                rw [List.append_nil] at hinner
                subst hinner
                dsimp only
                rw [if_neg]
                · exact mem_blockedFrom_self hparent hshort
                · rintro ⟨hlength, hcolon⟩
                  refine hdrive ⟨hlength, ?_⟩
                  rwa [htail, List.getElem?_append_left (by omega)] at hcolon
            | cons c inner =>
                rw [List.cons_append, List.cons.injEq] at hrest
                rw [← hrest.1] at hinner
                dsimp only
                rw [if_neg]
                · exact ih hinner hshort
                · rintro ⟨hlength, hcolon⟩
                  rw [hinner, List.length_append, List.length_cons] at hlength
                  have hone : parent.length = 1 := by
                    have := List.length_pos_iff.2 hparent
                    omega
                  rw [hpath, List.getElem?_append_right (by omega), hone] at hcolon
                  simp at hcolon
          · cases inner with
            | nil =>
                rw [List.append_nil] at hinner
                subst hinner
                dsimp only
                rw [if_neg]
                · exact mem_blockedFrom_self hparent hshort
                · rintro ⟨hlength, hcolon⟩
                  refine hdrive ⟨hlength, ?_⟩
                  rwa [htail, List.getElem?_append_left (by omega)] at hcolon
            | cons c inner =>
                rw [List.cons_append, List.cons.injEq] at hrest
                exact absurd (by rw [hrest.2]; simp) hfree

/-! ## Deletion targets -/

/-- The path lies at or below the other one, up to case. -/
def AtOrBelow (path parent : Text) : Prop :=
  qt.toCaseFolded path = qt.toCaseFolded parent ∨
    qt.toCaseFolded parent ++ ['\\'] <+: qt.toCaseFolded path

theorem mem_blocked_of_atOrBelow {plan : CommitPlan} {record : CommitTraversalRecord}
    (hmem : record ∈ plan.records) (hstatus : record.status ≠ .succeeded) {parent : Text}
    (hparent : qt.toCaseFolded parent ≠ []) (hdrive : ¬IsBareDrive (qt.toCaseFolded parent))
    (hbelow : AtOrBelow qt record.node.path parent) :
    qt.toCaseFolded parent ∈ plan.blocked qt := by
  rw [blocked, List.mem_flatMap]
  refine ⟨record, List.mem_filter.2 ⟨hmem, by simpa using hstatus⟩, ?_⟩
  rw [blockedPaths]
  rcases hbelow with hsame | ⟨rest, hrest⟩
  · rw [hsame]
    exact mem_blockedFrom_self hparent (le_refl _)
  · have hpath : qt.toCaseFolded record.node.path = qt.toCaseFolded parent ++ '\\' :: rest := by
      rw [← hrest]
      simp
    exact mem_blockedFrom hpath hparent hdrive (le_refl _)

theorem mem_targets {plan : CommitPlan} (hcanceled : plan.canceled = false)
    (hoperation : plan.request.operation = .deleteAndPersist) {node : CommitNode} :
    node ∈ plan.targets qt ↔
      (∃ record ∈ plan.records, record.status = .succeeded ∧ record.node = node) ∧
        plan.deletes qt node = true := by
  rw [targets, hcanceled, hoperation]
  simp only [Bool.false_eq_true, if_false, List.mem_insertionSort, List.mem_filter, List.mem_map,
    decide_eq_true_eq]
  constructor
  · rintro ⟨⟨record, ⟨hmem, hstatus⟩, hnode⟩, hdeletes⟩
    exact ⟨⟨record, hmem, hstatus, hnode⟩, hdeletes⟩
  · rintro ⟨⟨record, hmem, hstatus, hnode⟩, hdeletes⟩
    exact ⟨⟨record, ⟨hmem, hstatus⟩, hnode⟩, hdeletes⟩

/-- A path that names a folder or a key: it is not empty, and the root of a
drive is not written without its backslash. -/
structure NamesContainer (path : Text) : Prop where
  nonempty : qt.toCaseFolded path ≠ []
  notBareDrive : ¬IsBareDrive (qt.toCaseFolded path)

instance (path : Text) : Decidable (NamesContainer qt path) :=
  decidable_of_iff (qt.toCaseFolded path ≠ [] ∧ ¬IsBareDrive (qt.toCaseFolded path))
    ⟨fun h => ⟨h.1, h.2⟩, fun h => ⟨h.nonempty, h.notBareDrive⟩⟩

/-- What a deletion spares, and what it reaches. -/
structure SparesUncommitted (plan : CommitPlan) : Prop where
  containers : ∀ node ∈ plan.targets qt, node.kind.container = true →
    ∀ record ∈ plan.records, record.status ≠ .succeeded →
      ¬AtOrBelow qt record.node.path node.path
  defaultValues : plan.request.target.kind = .registryKey → ∀ node ∈ plan.targets qt,
    node.kind = .registryValue → node.valueName ≠ []
  values : ∀ record ∈ plan.records, record.status = .succeeded →
    record.node.kind = .registryValue →
    record.node ∈ plan.targets qt ∨
      (∃ key ∈ plan.targets qt, key.kind = .registryKey ∧
        qt.toCaseFolded key.path = qt.toCaseFolded record.node.path) ∨
      qt.toCaseFolded record.node.path ∈ plan.blocked qt ∧ record.node.valueName = []

/-- Below a registry key, the key of each default value that succeeded has a record of
its own.  A plan whose root is a single value has no such record, and needs none. -/
def HasKeys (plan : CommitPlan) : Prop :=
  plan.request.target.kind = .registryKey → ∀ record ∈ plan.records,
    record.status = .succeeded → record.node.kind = .registryValue →
    record.node.valueName = [] →
    ∃ key ∈ plan.records, key.node.kind = .registryKey ∧
      qt.toCaseFolded key.node.path = qt.toCaseFolded record.node.path

theorem exists_of_mem_deletedKeys {plan : CommitPlan} (hcanceled : plan.canceled = false)
    (hoperation : plan.request.operation = .deleteAndPersist) {path : Text}
    (hdeleted : path ∈ plan.deletedKeys qt) :
    ∃ key ∈ plan.targets qt, key.kind = .registryKey ∧ qt.toCaseFolded key.path = path := by
  rw [deletedKeys, List.mem_map] at hdeleted
  obtain ⟨record, hrecord, hpath⟩ := hdeleted
  obtain ⟨hmem, hkey⟩ := List.mem_filter.1 hrecord
  rw [decide_eq_true_eq] at hkey
  obtain ⟨hstatus, hkind, hfree⟩ := hkey
  refine ⟨record.node, (mem_targets qt hcanceled hoperation).2 ⟨⟨record, hmem, hstatus, rfl⟩, ?_⟩,
    hkind, hpath⟩
  rw [deletes, if_neg (by simp [hkind])]
  simp [hfree]

/-- A default value whose key is not deleted belongs to a key that is blocked. -/
theorem mem_blocked_of_not_deleted {plan : CommitPlan} {record key : CommitTraversalRecord}
    (hmem : key ∈ plan.records) (hkind : key.node.kind = .registryKey)
    (hnames : NamesContainer qt key.node.path)
    (hpath : qt.toCaseFolded key.node.path = qt.toCaseFolded record.node.path)
    (hspared : qt.toCaseFolded record.node.path ∉ plan.deletedKeys qt) :
    qt.toCaseFolded record.node.path ∈ plan.blocked qt := by
  rw [← hpath] at hspared ⊢
  by_cases hstatus : key.status = .succeeded
  · by_contra hfree
    apply hspared
    rw [deletedKeys, List.mem_map]
    exact ⟨key, List.mem_filter.2 ⟨hmem, decide_eq_true ⟨hstatus, hkind, hfree⟩⟩, rfl⟩
  · exact mem_blocked_of_atOrBelow qt hmem hstatus hnames.nonempty hnames.notBareDrive (Or.inl rfl)

/-- A deletion leaves every container alone under which something was not
committed, and deletes every other value that was. -/
theorem targets_spare_uncommitted {plan : CommitPlan} (hcanceled : plan.canceled = false)
    (hoperation : plan.request.operation = .deleteAndPersist)
    (hnames : ∀ record ∈ plan.records, record.node.kind.container = true →
      NamesContainer qt record.node.path)
    (hkeys : plan.HasKeys qt) : plan.SparesUncommitted qt := by
  constructor
  case containers =>
    intro node hnode hcontainer record hmem hstatus hbelow
    obtain ⟨⟨source, hsource, -, rfl⟩, hdeletes⟩ := (mem_targets qt hcanceled hoperation).1 hnode
    have hnamed := hnames source hsource hcontainer
    have hblocked := mem_blocked_of_atOrBelow qt hmem hstatus hnamed.nonempty hnamed.notBareDrive
      hbelow
    rw [deletes] at hdeletes
    split_ifs at hdeletes
    simp [hcontainer, hblocked] at hdeletes
  case defaultValues =>
    intro hroot node hnode hkind hdefault
    obtain ⟨-, hdeletes⟩ := (mem_targets qt hcanceled hoperation).1 hnode
    rw [deletes, if_pos ⟨hroot, hkind, Or.inr hdefault⟩] at hdeletes
    cases hdeletes
  case values =>
    intro record hmem hstatus hkind
    by_cases hdeleted : qt.toCaseFolded record.node.path ∈ plan.deletedKeys qt
    · exact Or.inr (Or.inl (exists_of_mem_deletedKeys qt hcanceled hoperation hdeleted))
    by_cases hdefault : plan.request.target.kind = .registryKey ∧ record.node.valueName = []
    · obtain ⟨hroot, hname⟩ := hdefault
      obtain ⟨key, hkey, hkeyKind, hpath⟩ := hkeys hroot record hmem hstatus hkind hname
      exact Or.inr (Or.inr ⟨mem_blocked_of_not_deleted qt hkey hkeyKind
        (hnames key hkey (by rw [hkeyKind]; rfl)) hpath hdeleted, hname⟩)
    · refine Or.inl ((mem_targets qt hcanceled hoperation).2 ⟨⟨record, hmem, hstatus, rfl⟩, ?_⟩)
      rw [deletes, if_neg (by grind), hkind]
      rfl

def registryNode (kind : CommitTargetKind) (path valueName : String) : CommitNode :=
  ⟨kind, path.toList, valueName.toList, []⟩

/-- A key with a default value, and a subkey that could not be read. -/
def partialKey : CommitPlan where
  request := ⟨.deleteAndPersist, registryNode .registryKey "HKLM\\Software" ""⟩
  records := [⟨registryNode .registryKey "HKLM\\Software" "", .succeeded, [], [], 1⟩,
    ⟨registryNode .registryValue "HKLM\\software" "", .succeeded, [], [], 1⟩,
    ⟨registryNode .registryKey "HKLM\\Software\\Sub" "", .failed, [], [], 1⟩]

theorem targets_spare_uncommitted_partialKey : partialKey.SparesUncommitted Qt.ascii := by
  refine targets_spare_uncommitted Qt.ascii rfl rfl (by decide +kernel) ?_
  intro _ record hmem _ hkind _
  refine ⟨partialKey.records.head (by decide), List.head_mem _, rfl, ?_⟩
  simp only [partialKey, List.mem_cons, List.not_mem_nil, or_false] at hmem
  rcases hmem with rfl | rfl | rfl
  · exact absurd hkind (by decide)
  · decide +kernel
  · exact absurd hkind (by decide)

/-- A folder that is given as a bare drive, and a file below it that was skipped. -/
def bareDrive : CommitPlan where
  request := ⟨.deleteAndPersist, registryNode .folder "C:" ""⟩
  records := [⟨registryNode .folder "C:" "", .succeeded, [], [], 1⟩,
    ⟨registryNode .file "C:\\link" "", .skipped, [], [], 1⟩]

/-- A default value whose key has no record. -/
def keylessValue : CommitPlan where
  request := ⟨.deleteAndPersist, registryNode .registryKey "HKLM\\Software" ""⟩
  records := [⟨registryNode .registryValue "HKLM\\Software" "", .succeeded, [], [], 1⟩]

/-- Neither container path below ends with a separator; still the bare drive is
a target, and the value without a key is not. -/
theorem targets_bareDrive_keylessValue :
    ¬bareDrive.SparesUncommitted Qt.ascii ∧ ¬keylessValue.SparesUncommitted Qt.ascii := by
  constructor
  · intro hspares
    exact hspares.containers (registryNode .folder "C:" "") (by decide +kernel) rfl
      ⟨registryNode .file "C:\\link" "", .skipped, [], [], 1⟩ (by decide +kernel) (by decide)
      (Or.inr ⟨"link".toList, by decide +kernel⟩)
  · intro hspares
    have hnone : keylessValue.targets Qt.ascii = [] := by decide +kernel
    have hfree : keylessValue.blocked Qt.ascii = [] := by decide +kernel
    rcases hspares.values ⟨registryNode .registryValue "HKLM\\Software" "", .succeeded, [], [], 1⟩
      (by decide +kernel) rfl rfl with hown | ⟨key, hkey, -⟩ | ⟨hblocked, -⟩
    · rw [hnone] at hown
      cases hown
    · rw [hnone] at hkey
      cases hkey
    · rw [hfree] at hblocked
      cases hblocked

end CommitPlan

end UwfManager
