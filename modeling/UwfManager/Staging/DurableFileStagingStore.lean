import UwfManager.Library.StatefulAction
import UwfManager.Staging.FileStagingCodec
import UwfManager.Staging.FileStagingTask
import UwfManager.Uwf.WmiOperations
import UwfManager.Windows.RegistryKeyEdits

/-!
# A list that outlives the session

While the filter runs, what is written to the registry goes to the overlay of the
session and is gone after a restart, unless the key is excluded or the change is
committed.  The store of the staging list writes and then commits what would be
lost.  Any call may fail, and what a failed call leaves behind is not known.
-/

namespace UwfManager

namespace DurableFileStagingStore

open FileStagingCodec
open RegKey (RegistryCommitTarget Subkeys)

/-! ## The two layers -/

/-- A key of the staging tree: the names on the way to it from the root. -/
abbrev KeyPath := List Text

/-- `kFileStagingRegistryKey` -/
def stagingKey : KeyPath := ["FileStaging".toList]

/-- `kFileStagingEntriesValue` -/
def entriesValue : Text := "Entries".toList

def keyText (path : KeyPath) : Text := RegKey.locate fileStagingRegistryRoot path

/-- The key path relative to the root, if it leads into the staging tree. -/
def belowRoot (key : Text) : Option KeyPath :=
  if key = fileStagingRegistryRoot then some []
  else if (fileStagingRegistryRoot ++ ['\\']).isPrefixOf key then
    some ((key.drop (fileStagingRegistryRoot.length + 1)).splitOn '\\')
  else none

/-- The staging tree as one layer of the registry has it: the keys below its root, unless there
is no root, and the values in them. -/
structure Layer (fold : Text → Text) where
  tree : Option Subkeys
  wellFormed : ∀ keys ∈ tree, keys.WellFormed fold
  values : KeyPath → Text → Option RegistryValue

namespace Layer

variable {fold : Text → Text}

def empty : Layer fold := ⟨none, by rintro _ ⟨⟩, fun _ _ => none⟩

def has (layer : Layer fold) (path : KeyPath) : Bool :=
  layer.tree.any fun keys => (keys.descend fold path).isSome

/-- A value is read through its key. -/
def value (layer : Layer fold) (path : KeyPath) (name : Text) : Option RegistryValue :=
  if layer.has path then layer.values path name else none

/-- The keys of the tree, each behind those below it. -/
def paths (layer : Layer fold) : List KeyPath :=
  match layer.tree with
  | none => []
  | some keys => keys.postorder ++ [[]]

/-- The keys on the way are created; no key has a name that cannot be one. -/
def setValue (layer : Layer fold) (path : KeyPath) (name : Text) (value : RegistryValue) :
    Layer fold :=
  if hpath : ∀ part ∈ path, Subkeys.IsName part then
    { tree := some ((layer.tree.getD .none).create fold path)
      wellFormed := by
        rintro _ ⟨⟩
        refine Subkeys.create_wellFormed ?_ hpath
        cases htree : layer.tree with
        | none => exact trivial
        | some keys => exact layer.wellFormed keys htree
      values := fun key other =>
        if key = path ∧ other = name then some value else layer.value key other }
  else layer

/-- Deletes a key with the keys below it and the values in them. -/
def delete (layer : Layer fold) (path : KeyPath) : Layer fold where
  tree := if path = [] then none else layer.tree.map (·.erase fold path)
  wellFormed := by
    split_ifs
    · rintro _ ⟨⟩
    · intro keys hkeys
      obtain ⟨before, hbefore, rfl⟩ := Option.map_eq_some_iff.1 hkeys
      exact Subkeys.erase_wellFormed (layer.wellFormed before hbefore) path
  values key name :=
    if (path.map fold).isPrefixOf (key.map fold) then none else layer.value key name

/-- The keys from `HKEY_LOCAL_MACHINE` down to those of the tree. -/
def hive (layer : Layer fold) : Subkeys :=
  match layer.tree with
  | none => .none
  | some keys =>
      .key "SOFTWARE".toList
        (.key "HsingYun".toList (.key "UWF Manager".toList keys .none) .none) .none

theorem hive_wellFormed (layer : Layer fold) : layer.hive.WellFormed fold := by
  rw [hive]
  split
  · trivial
  · next keys hkeys =>
      have hkeys := layer.wellFormed keys hkeys
      refine ⟨by decide, by simp [Subkeys.names], ⟨by decide, by simp [Subkeys.names],
        ⟨by decide, by simp [Subkeys.names], hkeys, trivial⟩, trivial⟩, trivial⟩

def registry (layer : Layer fold) : RegKey.Registry fold where
  hives name := if name = "HKEY_LOCAL_MACHINE".toList then layer.hive else .none
  wellFormed := by
    intro name
    split_ifs
    · exact layer.hive_wellFormed
    · trivial

/-- The list of entries that the layer holds. -/
def load (layer : Layer fold) : Except StorageFailure (List FileStagingEntry) :=
  (RegistryFileStagingStore.loadStored (layer.value stagingKey entriesValue)).map
    (·.map Entry.toText)

end Layer

/-- What the filter does in the current session. -/
structure UwfSession where
  currentEnabled : Bool
  registryFilters : List RegistryFilterRow
  /-- The exclusions of the current session. -/
  exclusions : List Text

/-- The staging tree on the disk and as the session sees it; a system without the
filter has no `uwf`. -/
structure Machine (fold : Text → Text) where
  persistent : Layer fold
  session : Layer fold
  uwf : Option UwfSession

namespace Machine

variable {fold : Text → Text} (qt : Qt)

/-- The overlay marks no key or value of the disk as deleted. -/
structure HidesNothing (machine : Machine fold) : Prop where
  keys : ∀ path, machine.persistent.has path = true → machine.session.has path = true
  values : ∀ path name, machine.persistent.value path name ≠ none →
    machine.session.value path name ≠ none

/-- After a restart the session sees what is on the disk. -/
def reboot (machine : Machine fold) : Machine fold := { machine with session := machine.persistent }

def probeUwfCapability (machine : Machine fold) : UwfCapability :=
  if machine.uwf.isSome then .available else .unavailable

/-- An exclusion covers the key or a key above it. -/
def excluded (exclusions : List Text) (path : KeyPath) : Bool :=
  exclusions.any fun exclusion =>
    Paths.contains qt (Paths.stripTrailingSeparators exclusion) (keyText path)

/-- Changes of the key reach the disk at once. -/
def reaches (machine : Machine fold) (path : KeyPath) : Bool :=
  match machine.uwf with
  | none => true
  | some uwf => !uwf.currentEnabled || excluded qt uwf.exclusions path

def writeValue (path : KeyPath) (name : Text) (value : RegistryValue) (machine : Machine fold) :
    Machine fold :=
  { machine with
    session := machine.session.setValue path name value
    persistent :=
      if machine.reaches qt path then machine.persistent.setValue path name value
      else machine.persistent }

/-- Deletes all keys of the staging tree that the session sees. -/
def deleteTree (machine : Machine fold) : Machine fold :=
  { machine with
    session := machine.session.delete []
    persistent := (machine.session.paths.filter (machine.reaches qt)).foldl Layer.delete
      machine.persistent }

end Machine

/-! ## The calls -/

/-- What a call throws; `notFound` is the `WmiException` with that code. -/
inductive CallThrown where
  | notFound
  | thrown (thrown : Thrown)
  deriving DecidableEq

/-- The machine and the count of calls so far. -/
structure Progress (fold : Text → Text) where
  machine : Machine fold
  calls : ℕ := 0

/-- Which calls fail: what the failed call throws, and what it leaves behind. -/
abbrev Outages (fold : Text → Text) :=
  ℕ → Machine fold → Option (Thrown × Machine fold)

abbrev Call (fold : Text → Text) := StatefulAction CallThrown (Progress fold)

variable {fold : Text → Text} (qt : Qt) (outages : Outages fold)

/-- A call that fails in an outage and else does what it is for. -/
def attempt {A : Type} (action : StatefulAction CallThrown (Machine fold) A) : Call fold A :=
  fun progress =>
    match outages progress.calls progress.machine with
    | some (thrown, machine) => (.error (.thrown thrown), ⟨machine, progress.calls + 1⟩)
    | none =>
        let (result, machine) := action progress.machine
        (result, ⟨machine, progress.calls + 1⟩)

/-- Goes on when the target of the call was not found. -/
def ignoreNotFound (call : Call fold Unit) : Call fold Unit := fun progress =>
  match call progress with
  | (.error .notFound, progress) => (.ok (), progress)
  | other => other

/-! ### `RegistryFileStagingStore` -/

def failureThrown : StorageFailure → CallThrown
  | .invalidArgument what | .lengthError what | .runtimeError what | .systemError _ what =>
      .thrown (.standard ⟨what, none⟩)
  | .unfinished => .thrown .other

/-- The store deletes the tree or writes one value; its calls go to the session. -/
def storageReplace (entries : List FileStagingEntry) : Call fold Unit :=
  attempt outages fun machine =>
    match (RegistryFileStagingStore.replace RegKey.errorSuccess RegKey.errorSuccess
        RegKey.errorSuccess (entries.map Entry.ofText)
        (machine.session.value stagingKey entriesValue)) with
    | (.error failure, _) => (.error (failureThrown failure), machine)
    | (.ok (), none) => (.ok (), machine.deleteTree qt)
    | (.ok (), some value) => (.ok (), machine.writeValue qt stagingKey entriesValue value)

def ofRegistry {A : Type} (read : RegKey.Registry fold → Except RegKey.CollectFailure A) :
    StatefulAction CallThrown (Machine fold) A := fun machine =>
  match read machine.session.registry with
  | .ok value => (.ok value, machine)
  | .error _ => (.error (.thrown .other), machine)

def storageExists : Call fold Bool :=
  attempt outages (ofRegistry fun registry => registry.keyExists fileStagingRegistryRoot)

/-- `fuel` bounds how deep the recursion over the keys is followed. -/
def deletionPlan (fuel : ℕ) : Call fold (List RegistryCommitTarget) :=
  attempt outages
    (ofRegistry fun registry => registry.planRegistryTreeDeletion fuel fileStagingRegistryRoot)

/-! ### `UwfFilter` and `UwfRegistryFilter` -/

def uwfMissing : CallThrown := .thrown .other

def readFilter : Call fold Bool :=
  attempt outages fun machine =>
    match machine.uwf with
    | some uwf => (.ok uwf.currentEnabled, machine)
    | none => (.error uwfMissing, machine)

def readAll : Call fold (List RegistryFilterRow) :=
  attempt outages fun machine =>
    match machine.uwf with
    | some uwf => (.ok uwf.registryFilters, machine)
    | none => (.error uwfMissing, machine)

def exclusionPaths : Call fold (List Text) :=
  attempt outages fun machine =>
    match machine.uwf with
    | some uwf => (.ok uwf.exclusions, machine)
    | none => (.error uwfMissing, machine)

/-- Copies a value from the overlay to the disk.  A value that the overlay does not
change is not found. -/
def commitRegistry (path : KeyPath) (name : Text) : Call fold Unit :=
  attempt outages fun machine =>
    match machine.session.value path name with
    | none => (.error .notFound, machine)
    | some value =>
        if machine.persistent.value path name = some value then (.error .notFound, machine)
        else (.ok (), { machine with persistent := machine.persistent.setValue path name value })

/-- Deletes a key in the overlay and on the disk, and with it what is below it, since no key is
there without the one above.  A protected system may refuse a key that still has subkeys, which
is one of the outages.  What the session does not see is not found; nor is a key whose changes
reach the disk at once, for the overlay has nothing of it to commit. -/
def commitRegistryDeletion (key : Text) : Call fold Unit :=
  attempt outages fun machine =>
    match (belowRoot key).filter machine.session.has with
    | none => (.error .notFound, machine)
    | some path =>
        if machine.reaches qt path then (.error .notFound, machine)
        else
          (.ok (), { machine with
            session := machine.session.delete path
            persistent := machine.persistent.delete path })

/-! ## `DurableFileStagingStore` -/

def isCovered (exclusions : List Text) : Bool :=
  !(Paths.findCoveringExclusion qt exclusions fileStagingRegistryRoot).isEmpty

def recordMissing (message : String) : CallThrown := .thrown (.standard ⟨message.toList, none⟩)

/-- Without a filter that runs there is nothing to ask for. -/
def currentExclusions (currentEnabled : Bool) : Call fold (List Text) :=
  if currentEnabled then exclusionPaths outages else pure []

/-- What both ways of replacing a list read first: whether the filter runs, and whether
an exclusion covers the root. -/
def readCurrent (missing : String) : Call fold (Bool × Bool) := do
  let currentEnabled ← readFilter outages
  let rows ← readAll outages
  match rows.find? (·.currentSession) with
  | none => .fail (recordMissing missing)
  | some _ =>
      let exclusions ← currentExclusions outages currentEnabled
      return (currentEnabled, isCovered qt exclusions)

def preserveCurrent (capability : UwfCapability) : Call fold Unit :=
  if capability = .available then do
    let (currentEnabled, covered) ← readCurrent qt outages
      "file staging durability requires a current UWF registry filter record"
    if currentEnabled && !covered then
      ignoreNotFound (commitRegistry outages stagingKey entriesValue)
    else pure ()
  else pure ()

/-- Commits the deletion of the planned keys one by one; the plan names no values. -/
def commitDeletions : List RegistryCommitTarget → Call fold Unit
  | [] => pure ()
  | target :: targets => do
      ignoreNotFound (commitRegistryDeletion qt outages target.key)
      commitDeletions targets

def clearCurrent (fuel : ℕ) (capability : UwfCapability) : Call fold Unit :=
  if capability = .available then do
    let (currentEnabled, covered) ← readCurrent qt outages
      "file staging cleanup requires a current UWF registry filter record"
    let present ← storageExists outages
    if present then
      if !currentEnabled || covered then storageReplace qt outages []
      else do
        let targets ← deletionPlan outages fuel
        commitDeletions qt outages targets
    else pure ()
  else storageReplace qt outages []

def replace (fuel : ℕ) (capability : UwfCapability) (entries : List FileStagingEntry) :
    Call fold Unit :=
  if entries.isEmpty then clearCurrent qt outages fuel capability
  else do
    storageReplace qt outages entries
    preserveCurrent qt outages capability

/-! ## Keys -/

theorem keyText_nil : keyText [] = fileStagingRegistryRoot := by
  rw [keyText, RegKey.locate, List.flatMap_nil, List.append_nil]

theorem native_keyText {qt : Qt} (hqt : qt.ConvertsSeparators) (path : KeyPath) :
    Paths.native qt (keyText path) = fileStagingRegistryRoot ++
      (path.flatMap fun name => '\\' :: name).map Paths.toBackslash := by
  have hroot : fileStagingRegistryRoot.map Paths.toBackslash = fileStagingRegistryRoot := by
    decide +kernel
  have hhead : (keyText path).head? = some 'H' := by
    have hroot : fileStagingRegistryRoot.head? = some 'H' := by decide +kernel
    rw [keyText, RegKey.locate, List.head?_append, hroot]
    rfl
  have hplain := Qt.hasLongPathPrefix_of_head hhead (by decide) (by decide)
  rw [Paths.native_eq_map hqt (hqt.fromNative _ hplain), keyText, RegKey.locate, List.map_append, hroot]

/-- What contains the root contains every key of the tree. -/
theorem contains_keyText {qt : Qt} (hqt : qt.ConvertsSeparators) {parent : Text}
    (hcovers : Paths.contains qt parent fileStagingRegistryRoot = true) (path : KeyPath) :
    Paths.contains qt parent (keyText path) = true := by
  have hroot := native_keyText hqt []
  rw [keyText_nil, List.flatMap_nil, List.map_nil, List.append_nil] at hroot
  rw [Paths.contains_iff, hroot] at hcovers
  obtain ⟨hempty, front, back, hsplit, hfront, hback⟩ := hcovers
  rw [Paths.contains_iff, native_keyText hqt, hsplit, List.append_assoc]
  refine ⟨hempty, front, _, rfl, hfront, ?_⟩
  intro c hc
  cases back with
  | cons first rest => exact hback c hc
  | nil =>
      cases path with
      | nil => cases hc
      | cons name rest =>
          have hseparator : c = '\\' := (Option.some.inj hc).symm
          rw [hseparator]
          rfl

theorem descend_key (name : Text) (path : List Text) (below others : Subkeys) :
    (Subkeys.key name below others).descend fold (name :: path) = below.descend fold path := by
  rw [Subkeys.descend, Subkeys.find, if_pos rfl, Option.bind_some]

/-- The root of the staging tree is opened as any other key. -/
theorem openForRead_root (layer : Layer fold) :
    layer.registry.openForRead fileStagingRegistryRoot = .ok layer.tree := by
  have haddress : RegKey.resolveAddress fileStagingRegistryRoot =
      .ok ("HKEY_LOCAL_MACHINE".toList, "SOFTWARE\\HsingYun\\UWF Manager".toList) := by
    decide +kernel
  have hsplit : ("SOFTWARE\\HsingYun\\UWF Manager".toList).splitOn '\\' =
      ["SOFTWARE".toList, "HsingYun".toList, "UWF Manager".toList] := by decide +kernel
  rw [RegKey.Registry.openForRead, haddress]
  change Except.ok (layer.registry.openSubkey _ _) = _
  have hhive : layer.registry.hives "HKEY_LOCAL_MACHINE".toList = layer.hive := by
    rw [Layer.registry]
    dsimp only
    exact if_pos rfl
  rw [RegKey.Registry.openSubkey, if_neg (by decide), hsplit, hhive, Layer.hive]
  cases layer.tree with
  | none => rfl
  | some keys => rw [descend_key, descend_key, descend_key, Subkeys.descend]

theorem normalize_root : RegKey.normalize fileStagingRegistryRoot = fileStagingRegistryRoot := by
  decide +kernel

/-- Whatever names the keys below have, the root is the last target of the plan. -/
theorem plan_ends_with_root {layer : Layer fold} (htree : layer.tree ≠ none) {fuel : ℕ}
    {targets : List RegistryCommitTarget}
    (hplan : layer.registry.planRegistryTreeDeletion fuel fileStagingRegistryRoot = .ok targets) :
    ∃ front, targets = front ++ [⟨fileStagingRegistryRoot, []⟩] := by
  obtain ⟨keys, hkeys⟩ := Option.ne_none_iff_exists'.1 htree
  have hopen := openForRead_root layer
  rw [hkeys, ← normalize_root] at hopen
  rw [RegKey.Registry.planRegistryTreeDeletion, normalize_root] at hplan
  cases fuel with
  | zero => cases hplan
  | succ fuel =>
      rw [RegKey.Registry.collectKeyTree_found hopen, normalize_root] at hplan
      cases hmap : keys.names.mapM fun child =>
          layer.registry.collectKeyTree fuel (fileStagingRegistryRoot ++ '\\' :: child) with
      | error failure =>
          rw [hmap] at hplan
          cases hplan
      | ok lists =>
          rw [hmap] at hplan
          obtain rfl := Except.ok.inj hplan
          exact ⟨lists.flatten.map fun current => ⟨current, []⟩, List.map_append⟩

/-! ## What a call that returns has done -/

section Calls

variable {qt} {outages} {progress after : Progress fold}

theorem attempt_eq_ok {A : Type} {action : StatefulAction CallThrown (Machine fold) A} {value : A}
    (hreturned : attempt outages action progress = (.ok value, after)) :
    action progress.machine = (.ok value, after.machine) := by
  rw [attempt] at hreturned
  cases houtage : outages progress.calls progress.machine with
  | some failed =>
      simp only [houtage] at hreturned
      cases hreturned
  | none =>
      simp only [houtage, Prod.mk.injEq] at hreturned
      rw [← hreturned.2, ← hreturned.1]

theorem attempt_eq_notFound {A : Type} {action : StatefulAction CallThrown (Machine fold) A}
    (hthrown : attempt outages action progress = (.error .notFound, after)) :
    action progress.machine = (.error .notFound, after.machine) := by
  rw [attempt] at hthrown
  cases houtage : outages progress.calls progress.machine with
  | some failed =>
      simp only [houtage] at hthrown
      cases hthrown
  | none =>
      simp only [houtage, Prod.mk.injEq] at hthrown
      rw [← hthrown.2, ← hthrown.1]

theorem ignoreNotFound_eq_ok {call : Call fold Unit}
    (hreturned : ignoreNotFound call progress = (.ok (), after)) :
    call progress = (.ok (), after) ∨ call progress = (.error .notFound, after) := by
  rw [ignoreNotFound] at hreturned
  rcases hcall : call progress with ⟨thrown | value, between⟩
  · cases thrown with
    | notFound =>
        rw [hcall] at hreturned
        rw [(Prod.mk.inj hreturned).2]
        exact Or.inr rfl
    | thrown thrown =>
        rw [hcall] at hreturned
        cases hreturned
  · rw [hcall] at hreturned
    exact Or.inl hreturned

/-- A reading call finds the state of the filter and changes nothing. -/
theorem readUwf_eq_ok {A : Type} {read : UwfSession → A} {value : A}
    (hreturned : attempt outages (fun machine => match machine.uwf with
      | some uwf => (.ok (read uwf), machine)
      | none => (.error uwfMissing, machine)) progress = (.ok value, after)) :
    after.machine = progress.machine ∧ ∃ uwf, progress.machine.uwf = some uwf ∧ read uwf = value := by
  have hresult := attempt_eq_ok hreturned
  cases huwf : progress.machine.uwf with
  | none =>
      simp only [huwf] at hresult
      cases hresult
  | some uwf =>
      simp only [huwf, Prod.mk.injEq, Except.ok.injEq] at hresult
      exact ⟨hresult.2.symm, uwf, rfl, hresult.1⟩

/-- When the filter does not run or covers the root, all changes reach the disk, and else
those of the root do not. -/
theorem readCurrent_eq_ok (hqt : qt.ConvertsSeparators) {missing : String}
    {found : Bool × Bool}
    (hreturned : readCurrent qt outages missing progress = (.ok found, after)) :
    after.machine = progress.machine ∧
      ((found.1 && !found.2) = false → ∀ path, progress.machine.reaches qt path = true) ∧
      ((found.1 && !found.2) = true → progress.machine.reaches qt [] = false) := by
  obtain ⟨currentEnabled, first, hfilter, hreturned⟩ := StatefulAction.bind_eq_ok.1 hreturned
  obtain ⟨hfirst, uwf, huwf, henabled⟩ := readUwf_eq_ok hfilter
  obtain ⟨rows, second, hrows, hreturned⟩ := StatefulAction.bind_eq_ok.1 hreturned
  obtain ⟨hsecond, -⟩ := readUwf_eq_ok hrows
  cases hcurrent : rows.find? (·.currentSession) with
  | none =>
      simp only [hcurrent] at hreturned
      cases hreturned
  | some row =>
      simp only [hcurrent] at hreturned
      obtain ⟨exclusions, third, hexclusions, hreturned⟩ :=
        StatefulAction.bind_eq_ok.1 hreturned
      obtain ⟨hfound, hafter⟩ := StatefulAction.pure_eq_ok.1 hreturned
      subst hfound hafter henabled
      cases henabled : uwf.currentEnabled with
      | false =>
          rw [henabled, currentExclusions, if_neg Bool.false_ne_true] at hexclusions
          obtain ⟨-, hthird⟩ := StatefulAction.pure_eq_ok.1 hexclusions
          rw [← hthird, hsecond, hfirst]
          refine ⟨rfl, fun _ path => ?_, fun hcommit => absurd hcommit Bool.false_ne_true⟩
          simp only [Machine.reaches, huwf, henabled]
          rfl
      | true =>
          rw [henabled, currentExclusions, if_pos rfl] at hexclusions
          obtain ⟨hthird, other, hother, hread⟩ := readUwf_eq_ok hexclusions
          rw [hsecond, hfirst, huwf] at hother
          cases hother
          rw [hthird, hsecond, hfirst]
          have hreaches : ∀ path, progress.machine.reaches qt path =
              Machine.excluded qt uwf.exclusions path := by
            intro path
            simp only [Machine.reaches, huwf, henabled, Bool.not_true, Bool.false_or]
          refine ⟨rfl, fun hcovered path => ?_, fun hcommit => ?_⟩
          · rw [Bool.true_and, Bool.not_eq_false', isCovered, Bool.not_eq_true', ← hread]
              at hcovered
            obtain ⟨exclusion, hmem, hcontains⟩ :=
              Paths.exists_of_findCoveringExclusion qt hcovered
            rw [strip_root] at hcontains
            rw [hreaches, Machine.excluded, List.any_eq_true]
            exact ⟨exclusion, hmem, contains_keyText hqt hcontains path⟩
          · rw [Bool.true_and, Bool.not_eq_true', isCovered, Bool.not_eq_false', ← hread]
              at hcommit
            rw [hreaches, Machine.excluded, List.any_eq_false]
            intro exclusion hmem hcontains
            rw [keyText_nil] at hcontains
            have hcovered := Paths.findCoveringExclusion_of_contains hqt hmem
              (show Paths.contains qt _ (Paths.stripTrailingSeparators fileStagingRegistryRoot) = true
                by rwa [strip_root])
            rw [hcommit] at hcovered
            cases hcovered

theorem deleteTree_eq_ok (hreturned : storageReplace qt outages [] progress = (.ok (), after)) :
    after.machine = progress.machine.deleteTree qt := by
  have hresult := attempt_eq_ok hreturned
  have hreplaced : RegistryFileStagingStore.replace RegKey.errorSuccess RegKey.errorSuccess
      RegKey.errorSuccess ([].map Entry.ofText)
      (progress.machine.session.value stagingKey entriesValue) = (.ok (), none) := rfl
  rw [hreplaced] at hresult
  exact (Prod.mk.inj hresult).2.symm

/-- The value that is written holds the list. -/
theorem storageReplace_eq_ok {entries : List FileStagingEntry} (hentries : entries ≠ [])
    (hreturned : storageReplace qt outages entries progress = (.ok (), after)) :
    ∃ value, after.machine = progress.machine.writeValue qt stagingKey entriesValue value ∧
      (RegistryFileStagingStore.loadStored (some value)).map (·.map Entry.toText) =
        .ok entries := by
  have hresult := attempt_eq_ok hreturned
  rcases hreplaced : RegistryFileStagingStore.replace RegKey.errorSuccess RegKey.errorSuccess
      RegKey.errorSuccess (entries.map Entry.ofText)
      (progress.machine.session.value stagingKey entriesValue) with
    ⟨failure | returned, stored⟩
  · simp only [hreplaced] at hresult
    cases hresult
  · have hload := RegistryFileStagingStore.loadStored_replace_ofText
      (fun hmissing => absurd hmissing (by decide)) hreplaced
    cases stored with
    | none => exact absurd (Except.ok.inj hload).symm hentries
    | some value =>
        simp only [hreplaced] at hresult
        exact ⟨value, (Prod.mk.inj hresult).2.symm, hload⟩

theorem stagingKey_names : ∀ part ∈ stagingKey, Subkeys.IsName part := by decide

theorem value_setValue (layer : Layer fold) {path : KeyPath}
    (hpath : ∀ part ∈ path, Subkeys.IsName part) (name : Text) (value : RegistryValue) :
    (layer.setValue path name value).value path name = some value := by
  rw [Layer.setValue, dif_pos hpath, Layer.value, Layer.has]
  dsimp only
  rw [Option.any_some, if_pos (Subkeys.descend_create _ path), if_pos ⟨rfl, rfl⟩]

/-- After a write the session has the value; the disk has it too when the key reaches it. -/
theorem writeValue_value (machine : Machine fold) {path : KeyPath}
    (hpath : ∀ part ∈ path, Subkeys.IsName part) (name : Text) (value : RegistryValue) :
    (machine.writeValue qt path name value).session.value path name = some value ∧
      (machine.reaches qt path = true →
        (machine.writeValue qt path name value).persistent.value path name = some value) := by
  refine ⟨value_setValue _ hpath name value, fun hreaches => ?_⟩
  rw [Machine.writeValue]
  dsimp only
  rw [if_pos hreaches]
  exact value_setValue _ hpath name value

/-- Preserving the list brings its value to the disk. -/
theorem preserveCurrent_eq_ok (hqt : qt.ConvertsSeparators) {value : RegistryValue}
    (hsession : progress.machine.session.value stagingKey entriesValue = some value)
    (hreaches : progress.machine.reaches qt stagingKey = true →
      progress.machine.persistent.value stagingKey entriesValue = some value)
    (hreturned : preserveCurrent qt outages progress.machine.probeUwfCapability progress =
      (.ok (), after)) :
    after.machine.persistent.value stagingKey entriesValue = some value := by
  rw [preserveCurrent] at hreturned
  split_ifs at hreturned with hcapability
  · obtain ⟨⟨currentEnabled, covered⟩, between, hread, hreturned⟩ :=
      StatefulAction.bind_eq_ok.1 hreturned
    obtain ⟨hbetween, hall, -⟩ := readCurrent_eq_ok hqt hread
    dsimp only at hreturned hall
    by_cases hcommit : (currentEnabled && !covered) = true
    · rw [if_pos hcommit] at hreturned
      rcases ignoreNotFound_eq_ok hreturned with hdone | hmissing
      · have hresult := attempt_eq_ok hdone
        rw [hbetween, hsession] at hresult
        simp only at hresult
        split_ifs at hresult with hsame
        · cases hresult
        · rw [← (Prod.mk.inj hresult).2]
          exact value_setValue _ stagingKey_names entriesValue value
      · -- nothing to commit: the disk has what the session sees
        have hresult := attempt_eq_notFound hmissing
        rw [hbetween, hsession] at hresult
        simp only at hresult
        split_ifs at hresult with hsame
        · rw [← (Prod.mk.inj hresult).2]
          exact hsame
        · cases hresult
    · rw [Bool.not_eq_true] at hcommit
      rw [hcommit, if_neg Bool.false_ne_true] at hreturned
      obtain ⟨-, hafter⟩ := StatefulAction.pure_eq_ok.1 hreturned
      rw [← hafter, hbetween]
      exact hreaches (hall hcommit stagingKey)
  · obtain ⟨-, hafter⟩ := StatefulAction.pure_eq_ok.1 hreturned
    rw [← hafter]
    apply hreaches
    cases huwf : progress.machine.uwf with
    | none => simp only [Machine.reaches, huwf]
    | some uwf => simp [Machine.probeUwfCapability, huwf] at hcapability

/-- A root that the session does not see is not on the disk either. -/
def Machine.RootShown (machine : Machine fold) : Prop :=
  machine.session.tree = none → machine.persistent.tree = none

theorem Machine.HidesNothing.rootShown {machine : Machine fold} (hhides : machine.HidesNothing) :
    machine.RootShown := by
  intro hsession
  cases hpersistent : machine.persistent.tree with
  | none => rfl
  | some keys =>
      have hseen := hhides.keys [] (by rw [Layer.has, hpersistent]; rfl)
      rw [Layer.has, hsession] at hseen
      cases hseen

/-- Nothing of a tree that the session sees is left on the disk when all changes reach it. -/
theorem deleteTree_tree {machine : Machine fold} (hshown : machine.RootShown)
    (hreaches : machine.reaches qt [] = true) :
    (machine.deleteTree qt).persistent.tree = none := by
  rw [Machine.deleteTree, Layer.paths]
  cases htree : machine.session.tree with
  | none => exact hshown htree
  | some keys =>
      dsimp only
      rw [List.filter_append, List.filter_singleton, hreaches, List.foldl_append]
      rfl

/-- The deletions that are committed under a filter that runs: the disk shows what it has of
the root in the session, and changes of the root do not reach it. -/
structure Committing (qt : Qt) (machine : Machine fold) : Prop where
  shown : machine.RootShown
  held : machine.reaches qt [] = false

theorem rootShown_delete {machine : Machine fold} (hshown : machine.RootShown) (path : KeyPath) :
    Machine.RootShown { machine with
      session := machine.session.delete path, persistent := machine.persistent.delete path } := by
  rw [Machine.RootShown, Layer.delete, Layer.delete]
  dsimp only
  split_ifs
  · exact fun _ => rfl
  · rw [Option.map_eq_none_iff, Option.map_eq_none_iff]
    exact hshown

/-- Every deletion leaves it so, and that of the root leaves nothing on the disk. -/
theorem commitRegistryDeletion_eq_ok {target : Text} (hmachine : Committing qt progress.machine)
    (hreturned : ignoreNotFound (commitRegistryDeletion qt outages target) progress =
      (.ok (), after)) :
    Committing qt after.machine ∧
      (target = fileStagingRegistryRoot → after.machine.persistent.tree = none) := by
  rcases ignoreNotFound_eq_ok hreturned with hdone | hmissing
  · have hresult := attempt_eq_ok hdone
    cases hpath : (belowRoot target).filter progress.machine.session.has with
    | none =>
        simp only [hpath] at hresult
        cases hresult
    | some path =>
        simp only [hpath] at hresult
        split_ifs at hresult
        · cases hresult
        · rw [← (Prod.mk.inj hresult).2]
          refine ⟨⟨rootShown_delete hmachine.shown path, hmachine.held⟩, ?_⟩
          rintro rfl
          obtain rfl : [] = path := Option.some_inj.1 (Option.filter_eq_some_iff.1 hpath).1
          rfl
  · have hresult := attempt_eq_notFound hmissing
    cases hpath : (belowRoot target).filter progress.machine.session.has with
    | none =>
        simp only [hpath] at hresult
        rw [← (Prod.mk.inj hresult).2]
        refine ⟨hmachine, ?_⟩
        rintro rfl
        apply hmachine.shown
        have hunseen := Option.filter_eq_none_iff.1 hpath [] rfl
        cases htree : progress.machine.session.tree with
        | none => rfl
        | some keys => simp [Layer.has, htree, Subkeys.descend] at hunseen
    | some path =>
        simp only [hpath] at hresult
        split_ifs at hresult with hreaches
        · rw [← (Prod.mk.inj hresult).2]
          refine ⟨hmachine, ?_⟩
          rintro rfl
          obtain rfl : [] = path := Option.some_inj.1 (Option.filter_eq_some_iff.1 hpath).1
          rw [hmachine.held] at hreaches
          cases hreaches
        · cases hresult

theorem commitDeletions_eq_ok {front : List RegistryCommitTarget} {valueName : Text}
    (hmachine : Committing qt progress.machine)
    (hreturned : commitDeletions qt outages
      (front ++ [⟨fileStagingRegistryRoot, valueName⟩]) progress = (.ok (), after)) :
    after.machine.persistent.tree = none := by
  induction front generalizing progress with
  | nil =>
      obtain ⟨returned, between, hfirst, hrest⟩ := StatefulAction.bind_eq_ok.1 hreturned
      obtain ⟨-, hafter⟩ := StatefulAction.pure_eq_ok.1 hrest
      rw [← hafter]
      exact (commitRegistryDeletion_eq_ok hmachine hfirst).2 rfl
  | cons target front ih =>
      obtain ⟨returned, between, hfirst, hrest⟩ := StatefulAction.bind_eq_ok.1 hreturned
      exact ih (commitRegistryDeletion_eq_ok hmachine hfirst).1 hrest

theorem ofRegistry_eq_ok {A : Type} {read : RegKey.Registry fold → Except RegKey.CollectFailure A}
    {machine after : Machine fold} {value : A}
    (hreturned : ofRegistry read machine = (.ok value, after)) :
    read machine.session.registry = .ok value ∧ after = machine := by
  rw [ofRegistry] at hreturned
  cases hread : read machine.session.registry with
  | error failure =>
      simp only [hread] at hreturned
      cases hreturned
  | ok found =>
      simp only [hread] at hreturned
      cases hreturned
      exact ⟨rfl, rfl⟩

theorem storageExists_eq_ok {present : Bool}
    (hreturned : storageExists outages progress = (.ok present, after)) :
    after.machine = progress.machine ∧ progress.machine.session.tree.isSome = present := by
  obtain ⟨hread, hafter⟩ := ofRegistry_eq_ok (attempt_eq_ok hreturned)
  rw [RegKey.Registry.keyExists, openForRead_root] at hread
  exact ⟨hafter, Except.ok.inj hread⟩

theorem clearCurrent_eq_ok (hqt : qt.ConvertsSeparators) {fuel : ℕ}
    (hshown : progress.machine.RootShown)
    (hreturned : clearCurrent qt outages fuel progress.machine.probeUwfCapability progress =
      (.ok (), after)) :
    after.machine.persistent.tree = none := by
  rw [clearCurrent] at hreturned
  split_ifs at hreturned with hcapability
  · obtain ⟨⟨currentEnabled, covered⟩, first, hread, hreturned⟩ :=
      StatefulAction.bind_eq_ok.1 hreturned
    obtain ⟨hfirst, hall, hheld⟩ := readCurrent_eq_ok hqt hread
    dsimp only at hreturned hall hheld
    obtain ⟨present, second, hexists, hreturned⟩ := StatefulAction.bind_eq_ok.1 hreturned
    obtain ⟨hsecond, hpresent⟩ := storageExists_eq_ok hexists
    rw [hfirst] at hsecond hpresent
    cases present with
    | false =>
        obtain ⟨-, hafter⟩ := StatefulAction.pure_eq_ok.1 hreturned
        rw [← hafter, hsecond]
        exact hshown (Option.not_isSome_iff_eq_none.1 (by rw [hpresent]; exact Bool.false_ne_true))
    | true =>
        rw [if_pos rfl] at hreturned
        by_cases hcommit : (currentEnabled && !covered) = true
        · have hdirect : (!currentEnabled || covered) = false := by
            rw [← Bool.not_eq_true', Bool.not_or, Bool.not_not]
            exact hcommit
          rw [hdirect, if_neg Bool.false_ne_true] at hreturned
          obtain ⟨targets, third, hplan, hreturned⟩ := StatefulAction.bind_eq_ok.1 hreturned
          obtain ⟨hlisted, hthird⟩ := ofRegistry_eq_ok (attempt_eq_ok hplan)
          rw [hsecond] at hlisted hthird
          obtain ⟨front, rfl⟩ := plan_ends_with_root
            (Option.isSome_iff_ne_none.1 hpresent) hlisted
          have hcommitting : Committing qt third.machine := by
            rw [hthird]
            exact ⟨hshown, hheld hcommit⟩
          exact commitDeletions_eq_ok hcommitting hreturned
        · have hdirect : (!currentEnabled || covered) = true := by
            rw [← Bool.not_eq_false', Bool.not_or, Bool.not_not]
            exact Bool.not_eq_true _ ▸ hcommit
          rw [hdirect, if_pos rfl] at hreturned
          rw [deleteTree_eq_ok hreturned, hsecond]
          exact deleteTree_tree hshown (hall (Bool.not_eq_true _ ▸ hcommit) [])
  · rw [deleteTree_eq_ok hreturned]
    apply deleteTree_tree hshown
    cases huwf : progress.machine.uwf with
    | none => simp only [Machine.reaches, huwf]
    | some uwf => simp [Machine.probeUwfCapability, huwf] at hcapability

end Calls

/-- A tree whose only key below the root has a name that ends in a blank. -/
def blankLayer : Layer toUpperAscii where
  tree := some (.key "Old ".toList .none .none)
  wellFormed := by
    rintro _ ⟨⟩
    exact ⟨by decide, by simp [Subkeys.names], trivial, trivial⟩
  values _ _ := none

end DurableFileStagingStore

end UwfManager
