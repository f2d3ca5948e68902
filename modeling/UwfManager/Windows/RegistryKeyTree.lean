import Mathlib.Data.List.Flatten
import Mathlib.Tactic.Common
import UwfManager.Library.ExceptTraverse
import UwfManager.Windows.RegistryPath

/-!
# The keys of a registry tree

A tree of keys is listed with every key behind the keys below it.  The names of the subkeys
are put into key paths, and a key path is brought into its normal form before it is opened.
-/

namespace UwfManager

namespace RegKey

/-- The subkeys of a key, in the order in which they are enumerated. -/
inductive Subkeys where
  | none
  | key (name : Text) (below : Subkeys) (others : Subkeys)

namespace Subkeys

variable (fold : Text → Text)

def names : Subkeys → List Text
  | none => []
  | key name _ others => name :: others.names

/-- Finds a subkey.  Names are compared without their case. -/
def find (name : Text) : Subkeys → Option Subkeys
  | none => .none
  | key other below others => if fold other = fold name then some below else others.find name

def descend : Subkeys → List Text → Option Subkeys
  | keys, [] => some keys
  | keys, name :: path => (keys.find fold name).bind fun below => below.descend path

/-- A name is neither empty, nor does it have a backslash or the character that ends a path. -/
def IsName (name : Text) : Prop := name ≠ [] ∧ '\\' ∉ name ∧ '\x00' ∉ name

instance (name : Text) : Decidable (IsName name) :=
  inferInstanceAs (Decidable (_ ∧ _))

/-- The case does not distinguish subkeys of a key. -/
def WellFormed : Subkeys → Prop
  | none => True
  | key name below others =>
      IsName name ∧ (∀ other ∈ others.names, fold other ≠ fold name) ∧
        below.WellFormed ∧ others.WellFormed

/-- There is a key at a path below. -/
def Has : Subkeys → List Text → Prop
  | none, _ => False
  | key name below others, path =>
      path = [name] ∨ (∃ deeper, path = name :: deeper ∧ below.Has deeper) ∨ others.Has path

/-- A path leads to a key of the tree, its root included. -/
def IsKey (keys : Subkeys) (path : List Text) : Prop := path = [] ∨ keys.Has path

def depth : Subkeys → ℕ
  | none => 0
  | key _ below others => max (below.depth + 1) others.depth

end Subkeys

/-- The trees under the root keys, found by their long form. -/
structure Registry (fold : Text → Text) where
  hives : Text → Subkeys
  wellFormed : ∀ hive, (hives hive).WellFormed fold

inductive CollectFailure where
  /-- `ERROR_INVALID_PARAMETER` -/
  | invalidParameter
  /-- the recursion went deeper than it was followed -/
  | unfinished
  deriving DecidableEq, Repr

structure RegistryCommitTarget where
  key : Text
  valueName : Text

/-- The root key and the path under it. -/
def resolveAddress (key : Text) : Except CollectFailure (Text × Text) :=
  let normalized := normalize key
  if normalized.isEmpty then .error .invalidParameter
  else
    let hive := toUpperAscii (normalized.takeWhile (· != '\\'))
    match registryHiveNames.find? fun candidate => hive == candidate.longForm with
    | some candidate => .ok (candidate.longForm, (normalized.dropWhile (· != '\\')).tail)
    | none => .error .invalidParameter

namespace Registry

variable {fold : Text → Text} (registry : Registry fold)

/-- `RegOpenKeyExW` -/
def openSubkey (hive subkey : Text) : Option Subkeys :=
  if subkey.isEmpty then some (registry.hives hive)
  else (registry.hives hive).descend fold (subkey.splitOn '\\')

def openForRead (key : Text) : Except CollectFailure (Option Subkeys) := do
  let (hive, subkey) ← resolveAddress key
  return registry.openSubkey hive subkey

def keyExists (key : Text) : Except CollectFailure Bool := do
  let opened ← registry.openForRead key
  return opened.isSome

def subkeyNames (key : Text) : Except CollectFailure (List Text) := do
  let opened ← registry.openForRead key
  match opened with
  | some keys => return keys.names
  | none => return []

/-- The number bounds how deep the recursion is followed. -/
def collectKeyTree : ℕ → Text → Except CollectFailure (List Text)
  | 0, _ => .error .unfinished
  | fuel + 1, key => do
      let norm := normalize key
      let found ← registry.keyExists norm
      if !found then return []
      let children ← registry.subkeyNames norm
      let descendants ← children.mapM fun child => collectKeyTree fuel (norm ++ '\\' :: child)
      return descendants.flatten ++ [norm]

/-- `valueNames` are the names of the values of a key. -/
def planRegistryTreeCommit (valueNames : Text → List Text) (fuel : ℕ) (key : Text) :
    Except CollectFailure (List RegistryCommitTarget) := do
  let keys ← registry.collectKeyTree fuel (normalize key)
  return keys.flatMap fun current => (valueNames current).map fun valueName =>
    ⟨current, valueName⟩

def planRegistryTreeDeletion (fuel : ℕ) (key : Text) :
    Except CollectFailure (List RegistryCommitTarget) := do
  let keys ← registry.collectKeyTree fuel (normalize key)
  return keys.map fun current => ⟨current, []⟩

end Registry

/-! ## The list of a tree -/

/-- The key path of a key below another one. -/
def locate (path : Text) (names : List Text) : Text :=
  path ++ names.flatMap fun name => '\\' :: name

/-- A list has the path of every key of the tree once, and a key only behind all the keys that
are below it. -/
structure ListsTree (path : Text) (keys : Subkeys) (listed : List Text) : Prop where
  each : ∀ address, address ∈ listed ↔ ∃ names, keys.IsKey names ∧ address = locate path names
  once : listed.Nodup
  deeperFirst : ∀ names deeper front back, keys.IsKey (names ++ deeper) → deeper ≠ [] →
    listed = front ++ locate path names :: back → locate path (names ++ deeper) ∈ front

namespace Subkeys

variable {fold : Text → Text}

/-- The paths of the keys below, each behind the paths that go on from it. -/
def postorder : Subkeys → List (List Text)
  | none => []
  | key name below others => below.postorder.map (name :: ·) ++ [name] :: others.postorder

theorem mem_postorder {keys : Subkeys} {path : List Text} :
    path ∈ keys.postorder ↔ keys.Has path := by
  induction keys generalizing path with
  | none => simp [postorder, Has]
  | key name below others hbelow hothers =>
      rw [postorder, Has, List.mem_append, List.mem_map, List.mem_cons, hothers]
      constructor
      · rintro (⟨deeper, hdeeper, rfl⟩ | h | h)
        · exact Or.inr (Or.inl ⟨deeper, rfl, hbelow.1 hdeeper⟩)
        · exact Or.inl h
        · exact Or.inr (Or.inr h)
      · rintro (h | ⟨deeper, rfl, hdeeper⟩ | h)
        · exact Or.inr (Or.inl h)
        · exact Or.inl ⟨deeper, hbelow.2 hdeeper, rfl⟩
        · exact Or.inr (Or.inr h)

theorem Has.head {keys : Subkeys} {path : List Text} (hpath : keys.Has path) :
    ∃ name ∈ keys.names, ∃ deeper, path = name :: deeper := by
  induction keys with
  | none => exact hpath.elim
  | key name below others _ hothers =>
      rcases hpath with rfl | ⟨deeper, rfl, -⟩ | h
      · exact ⟨name, List.mem_cons_self, [], rfl⟩
      · exact ⟨name, List.mem_cons_self, deeper, rfl⟩
      · obtain ⟨other, hmem, deeper, rfl⟩ := hothers h
        exact ⟨other, List.mem_cons_of_mem _ hmem, deeper, rfl⟩

/-- The names on the way to a key are those of keys. -/
theorem Has.valid {keys : Subkeys} (hkeys : keys.WellFormed fold) {path : List Text}
    (hpath : keys.Has path) : ∀ name ∈ path, IsName name := by
  induction keys generalizing path with
  | none => exact hpath.elim
  | key name below others hbelow hothers =>
      obtain ⟨hname, -, hkeysBelow, hkeysOthers⟩ := hkeys
      rcases hpath with rfl | ⟨deeper, rfl, hdeeper⟩ | h
      · rwa [List.forall_mem_singleton]
      · exact List.forall_mem_cons.2 ⟨hname, hbelow hkeysBelow hdeeper⟩
      · exact hothers hkeysOthers h

/-- No path stands in front of one that goes on from it. -/
theorem postorder_pairwise {keys : Subkeys} (hkeys : keys.WellFormed fold) :
    keys.postorder.Pairwise fun earlier later => ¬earlier <+: later := by
  induction keys with
  | none => exact List.Pairwise.nil
  | key name below others hbelow hothers =>
      obtain ⟨-, hdistinct, hkeysBelow, hkeysOthers⟩ := hkeys
      have hother : ∀ path ∈ others.postorder, ∀ deeper, ¬(name :: deeper) <+: path := by
        intro path hpath deeper hprefix
        obtain ⟨other, hmem, rest, rfl⟩ := (mem_postorder.1 hpath).head
        obtain ⟨rfl, -⟩ := List.cons_prefix_cons.1 hprefix
        exact hdistinct name hmem rfl
      rw [postorder, List.pairwise_append, List.pairwise_cons]
      refine ⟨?_, ⟨fun path hpath => hother path hpath [], hothers hkeysOthers⟩, ?_⟩
      · rw [List.pairwise_map]
        apply (hbelow hkeysBelow).imp
        intro earlier later h hprefix
        exact h (List.cons_prefix_cons.1 hprefix).2
      · intro earlier hearlier later hlater
        obtain ⟨deeper, hdeeper, rfl⟩ := List.mem_map.1 hearlier
        rcases List.mem_cons.1 hlater with rfl | hlater
        · obtain ⟨first, -, rest, rfl⟩ := (mem_postorder.1 hdeeper).head
          intro hprefix
          have hlength := hprefix.length_le
          simp at hlength
        · exact hother later hlater deeper

end Subkeys

theorem locate_cons (path name : Text) (names : List Text) :
    locate path (name :: names) = locate (path ++ '\\' :: name) names := by
  rw [locate, locate, List.flatMap_cons, List.append_assoc]

/-- The names below a key follow its own when its path is taken apart. -/
theorem splitOn_locate (path : Text) {names : List Text} (hnames : ∀ name ∈ names, '\\' ∉ name) :
    (locate path names).splitOn '\\' = path.splitOn '\\' ++ names := by
  induction names generalizing path with
  | nil => rw [locate, List.flatMap_nil, List.append_nil, List.append_nil]
  | cons name names ih =>
      obtain ⟨hname, hnames⟩ := List.forall_mem_cons.1 hnames
      calc (locate path (name :: names)).splitOn '\\'
          = (path ++ '\\' :: name).splitOn '\\' ++ names := by rw [locate_cons, ih _ hnames]
        _ = path.splitOn '\\' ++ [name] ++ names := by
            rw [List.splitOn_append_cons_self, List.splitOn_eq_singleton hname]
        _ = path.splitOn '\\' ++ name :: names := by
            rw [List.append_assoc, List.singleton_append]

/-- Different ways down are different key paths. -/
theorem locate_injective {path : Text} {first second : List Text}
    (hfirst : ∀ name ∈ first, '\\' ∉ name) (hsecond : ∀ name ∈ second, '\\' ∉ name)
    (h : locate path first = locate path second) : first = second := by
  have hlists := splitOn_locate path hfirst
  rw [h, splitOn_locate path hsecond] at hlists
  exact (List.append_cancel_left hlists).symm

/-! ## Opening a key -/

/-- A key path as `collectKeyTree` returns it: a spelled out root key, and neither a backslash
nor a blank at the end. -/
structure IsAddress (path : Text) : Prop where
  longForm : LongForm path
  visible : ¬EndsInBlank path
  closed : ∀ c ∈ path.getLast?, c ≠ '\\'

theorem IsAddress.normalize {path : Text} (hpath : IsAddress path) : normalize path = path := by
  have hhead : ∀ c ∈ path.head?, isAsciiWhitespace c = false := by
    intro c hc
    rw [head?_of_longForm hpath.longForm] at hc
    obtain rfl := Option.some_inj.1 hc
    rfl
  obtain ⟨hive, hhive, rest, rfl, hrest⟩ := hpath.longForm
  rw [normalize_eq, stripped_eq_self hhead hpath.visible hpath.closed]
  exact expandHive_longForm hhive hrest

theorem IsAddress.child {path name : Text} (hpath : IsAddress path) (hname : name ≠ [])
    (hclosed : '\\' ∉ name) (hvisible : ¬EndsInBlank name) :
    IsAddress (path ++ '\\' :: name) where
  longForm := by
    obtain ⟨hive, hhive, rest, rfl, hrest⟩ := hpath.longForm
    refine ⟨hive, hhive, rest ++ '\\' :: name, List.append_assoc _ _ _, Or.inr ?_⟩
    rcases hrest with rfl | hrest
    · rfl
    · rw [List.head?_append, hrest]
      rfl
  visible := by
    rwa [← List.singleton_append, ← List.append_assoc, endsInBlank_append hname]
  closed := by
    intro c hc
    rw [← List.singleton_append, ← List.append_assoc, List.getLast?_append_of_ne_nil _ hname] at hc
    rintro rfl
    exact hclosed (List.mem_of_getLast? hc)

/-- The long form is found among the root keys. -/
theorem find_longForm {hive : RegistryHiveName} (hmem : hive ∈ registryHiveNames) :
    (registryHiveNames.find? fun candidate =>
      toUpperAscii hive.longForm == candidate.longForm).map (·.longForm) = some hive.longForm := by
  revert hive
  decide

theorem IsAddress.resolveAddress {hive : RegistryHiveName} (hmem : hive ∈ registryHiveNames)
    {rest : Text} (hrest : rest = [] ∨ rest.head? = some '\\')
    (hpath : IsAddress (hive.longForm ++ rest)) :
    resolveAddress (hive.longForm ++ rest) = .ok (hive.longForm, rest.tail) := by
  obtain ⟨htake, hdrop⟩ := takeWhile_longForm hmem hrest
  obtain ⟨candidate, hfound, hlong⟩ := Option.map_eq_some_iff.1 (find_longForm hmem)
  have hne : (hive.longForm ++ rest).isEmpty = false := by
    rw [List.isEmpty_eq_false_iff]
    intro hnil
    exact longForm_ne_nil hmem (List.append_eq_nil_iff.1 hnil).1
  rw [RegKey.resolveAddress, hpath.normalize]
  simp only [hne, htake, hdrop, hfound, hlong, Bool.false_eq_true, if_false]

namespace Subkeys

variable {fold : Text → Text}

theorem descend_concat (keys : Subkeys) (path : List Text) (name : Text) :
    keys.descend fold (path ++ [name]) =
      (keys.descend fold path).bind fun below => below.find fold name := by
  induction path generalizing keys with
  | nil =>
      rw [List.nil_append, descend, descend, Option.bind_some]
      cases keys.find fold name <;> rfl
  | cons first path ih =>
      rw [List.cons_append, descend, descend, Option.bind_assoc]
      congr 1
      funext below
      exact ih below

theorem find_wellFormed {keys below : Subkeys} {name : Text} (hkeys : keys.WellFormed fold)
    (hfind : keys.find fold name = some below) : below.WellFormed fold := by
  induction keys with
  | none => cases hfind
  | key other inner others _ hothers =>
      obtain ⟨-, -, hinner, hkeysOthers⟩ := hkeys
      rw [find] at hfind
      split at hfind
      · obtain rfl := Option.some_inj.1 hfind
        exact hinner
      · exact hothers hkeysOthers hfind

theorem descend_wellFormed {keys below : Subkeys} {path : List Text}
    (hkeys : keys.WellFormed fold) (hdescend : keys.descend fold path = some below) :
    below.WellFormed fold := by
  induction path generalizing keys with
  | nil =>
      obtain rfl := Option.some_inj.1 hdescend
      exact hkeys
  | cons name path ih =>
      obtain ⟨inner, hinner, hrest⟩ := Option.bind_eq_some_iff.1 hdescend
      exact ih (find_wellFormed hkeys hinner) hrest

/-- Some of the subkeys of a key: each of them is found by its name. -/
def Among (fold : Text → Text) (keys : Subkeys) : Subkeys → Prop
  | none => True
  | key name below others => keys.find fold name = some below ∧ keys.Among fold others

theorem among_key {name : Text} {inner rest keys : Subkeys}
    (hdistinct : ∀ other ∈ keys.names, fold other ≠ fold name) (hkeys : rest.Among fold keys) :
    (key name inner rest).Among fold keys := by
  induction keys with
  | none => trivial
  | key other below others _ hothers =>
      obtain ⟨hother, hnames⟩ := List.forall_mem_cons.1 hdistinct
      refine ⟨?_, hothers hnames hkeys.2⟩
      rw [find, if_neg (Ne.symm hother)]
      exact hkeys.1

theorem among_self {keys : Subkeys} (hkeys : keys.WellFormed fold) : keys.Among fold keys := by
  induction keys with
  | none => trivial
  | key name below others _ hothers =>
      obtain ⟨-, hdistinct, -, hkeysOthers⟩ := hkeys
      refine ⟨?_, among_key hdistinct (hothers hkeysOthers)⟩
      rw [find, if_pos rfl]

end Subkeys

namespace Registry

variable {fold : Text → Text} {registry : Registry fold}

theorem wellFormed_of_open {key : Text} {keys : Subkeys}
    (hopen : registry.openForRead key = .ok (some keys)) : keys.WellFormed fold := by
  rw [openForRead] at hopen
  cases haddress : resolveAddress key with
  | error failure =>
      rw [haddress] at hopen
      cases hopen
  | ok address =>
      rw [haddress] at hopen
      have hsubkey : registry.openSubkey address.1 address.2 = some keys :=
        Except.ok.inj hopen
      rw [openSubkey] at hsubkey
      split at hsubkey
      · obtain rfl := Option.some_inj.1 hsubkey
        exact registry.wellFormed address.1
      · exact Subkeys.descend_wellFormed (registry.wellFormed address.1) hsubkey

/-- A subkey is opened by its name behind the path of its key. -/
theorem open_child {path name : Text} {keys below : Subkeys} (hpath : IsAddress path)
    (hopen : registry.openForRead path = .ok (some keys)) (hname : name ≠ [])
    (hclosed : '\\' ∉ name) (hvisible : ¬EndsInBlank name)
    (hfind : keys.find fold name = some below) :
    registry.openForRead (path ++ '\\' :: name) = .ok (some below) := by
  have hchild := hpath.child hname hclosed hvisible
  obtain ⟨hive, hhive, rest, rfl, hrest⟩ := hpath.longForm
  have hdown : rest ++ '\\' :: name = [] ∨ (rest ++ '\\' :: name).head? = some '\\' := by
    right
    rcases hrest with rfl | hrest
    · rfl
    · rw [List.head?_append, hrest]
      rfl
  rw [List.append_assoc] at hchild ⊢
  rw [openForRead, hpath.resolveAddress hhive hrest] at hopen
  rw [openForRead, hchild.resolveAddress hhive hdown]
  have hkeys : registry.openSubkey hive.longForm rest.tail = some keys := Except.ok.inj hopen
  apply congrArg Except.ok
  cases rest with
  | nil =>
      obtain rfl : registry.hives hive.longForm = keys := Option.some_inj.1 hkeys
      rw [List.nil_append, List.tail_cons, openSubkey,
        List.isEmpty_eq_false_iff.2 hname, List.splitOn_eq_singleton hclosed]
      change (Subkeys.descend fold _ ([] ++ [name])) = some below
      rw [Subkeys.descend_concat]
      exact hfind
  | cons first rest =>
      have hne : rest ≠ [] := by
        rintro rfl
        obtain rfl : first = '\\' := by simpa using hrest
        exact hpath.closed '\\' (by simp) rfl
      rw [List.tail_cons, openSubkey, List.isEmpty_eq_false_iff.2 hne] at hkeys
      rw [List.cons_append, List.tail_cons, openSubkey, List.isEmpty_eq_false_iff.2 (by simp),
        List.splitOn_append_cons_self, List.splitOn_eq_singleton hclosed]
      change (Subkeys.descend fold _ _) = some below
      rw [Subkeys.descend_concat]
      rw [show (registry.hives hive.longForm).descend fold (rest.splitOn '\\') = some keys from
        hkeys]
      exact hfind

/-! ## The recursion -/

/-- A key that is there is listed behind what is listed for its subkeys. -/
theorem collectKeyTree_found {key : Text} {keys : Subkeys}
    (hopen : registry.openForRead (normalize key) = .ok (some keys)) (fuel : ℕ) :
    registry.collectKeyTree (fuel + 1) key =
      (keys.names.mapM fun child =>
        registry.collectKeyTree fuel (normalize key ++ '\\' :: child)).map
          fun descendants => descendants.flatten ++ [normalize key] := by
  have hexists : registry.keyExists (normalize key) = .ok true := by
    rw [keyExists, hopen]
    rfl
  have hnames : registry.subkeyNames (normalize key) = .ok keys.names := by
    rw [subkeyNames, hopen]
    rfl
  rw [collectKeyTree, hexists, hnames]
  change (do
    let descendants ← keys.names.mapM fun child =>
      registry.collectKeyTree fuel (normalize key ++ '\\' :: child)
    return descendants.flatten ++ [normalize key]) = _
  cases keys.names.mapM fun child =>
    registry.collectKeyTree fuel (normalize key ++ '\\' :: child) with
  | error failure => rfl
  | ok descendants => rfl

theorem collectKeyTree_address {path : Text} {keys : Subkeys} (hpath : IsAddress path)
    (hopen : registry.openForRead path = .ok (some keys)) (fuel : ℕ) :
    registry.collectKeyTree (fuel + 1) path =
      (keys.names.mapM fun child => registry.collectKeyTree fuel (path ++ '\\' :: child)).map
        fun descendants => descendants.flatten ++ [path] := by
  have hnormal := hpath.normalize
  have hopen' : registry.openForRead (normalize path) = .ok (some keys) := by rwa [hnormal]
  have hfound := collectKeyTree_found hopen' fuel
  rwa [hnormal] at hfound

/-- What is listed for some of the subkeys of a key: the paths of all keys below it, as far as
no name of them ends in a blank. -/
theorem mapM_collectKeyTree {keys : Subkeys} (hkeys : keys.WellFormed fold)
    (hvisible : ∀ path name, keys.Has (path ++ [name]) → ¬EndsInBlank name) {path : Text}
    {parent : Subkeys} {fuel : ℕ} (hpath : IsAddress path)
    (hopen : registry.openForRead path = .ok (some parent)) (hamong : parent.Among fold keys)
    (hfuel : keys.depth ≤ fuel) :
    ∃ lists, keys.names.mapM (fun child =>
        registry.collectKeyTree fuel (path ++ '\\' :: child)) = .ok lists ∧
      lists.flatten = keys.postorder.map (locate path) := by
  induction keys generalizing path parent fuel with
  | none => exact ⟨[], rfl, rfl⟩
  | key name below others hbelow hothers =>
      obtain ⟨⟨hname, hclosed, -⟩, -, hkeysBelow, hkeysOthers⟩ := hkeys
      obtain ⟨hfind, hamongOthers⟩ := hamong
      have hname' : ¬EndsInBlank name := hvisible [] name (Or.inl rfl)
      have hchild := hpath.child hname hclosed hname'
      have hopenChild := open_child hpath hopen hname hclosed hname' hfind
      have hlast := hothers hkeysOthers (fun path name h => hvisible path name (Or.inr (Or.inr h)))
        hpath hopen hamongOthers (le_trans (le_max_right _ _) hfuel)
      obtain ⟨rest, hrest, hflatten⟩ := hlast
      have hdeep : below.depth + 1 ≤ fuel := le_trans (le_max_left _ _) hfuel
      obtain ⟨inner, rfl⟩ : ∃ inner, fuel = inner + 1 := ⟨fuel - 1, by omega⟩
      obtain ⟨lists, hlists, hinner⟩ := hbelow hkeysBelow
        (fun front last h => hvisible (name :: front) last (Or.inr (Or.inl ⟨_, rfl, h⟩)))
        hchild hopenChild (Subkeys.among_self hkeysBelow)
        (Nat.le_of_succ_le_succ hdeep)
      have hfirst : registry.collectKeyTree (inner + 1) (path ++ '\\' :: name) =
          .ok (lists.flatten ++ [path ++ '\\' :: name]) := by
        rw [collectKeyTree_address hchild hopenChild, hlists]
        rfl
      refine ⟨(lists.flatten ++ [path ++ '\\' :: name]) :: rest, ?_, ?_⟩
      · rw [Subkeys.names, ExceptTraverse.mapM_cons_eq_ok]
        exact ⟨_, rest, hfirst, hrest, rfl⟩
      · have hself : locate path [name] = path ++ '\\' :: name := by
          rw [locate_cons, locate, List.flatMap_nil, List.append_nil]
        have hdown : (below.postorder.map (name :: ·)).map (locate path) =
            below.postorder.map (locate (path ++ '\\' :: name)) := by
          rw [List.map_map]
          apply List.map_congr_left
          intro names _
          exact locate_cons path name names
        rw [List.flatten_cons, hflatten, hinner, Subkeys.postorder, List.map_append, List.map_cons,
          hdown, hself, List.append_assoc, List.singleton_append]

end Registry

/-- Of the names of two keys the earlier ones are no front of the later ones. -/
theorem Subkeys.keys_pairwise {fold : Text → Text} {keys : Subkeys} (hkeys : keys.WellFormed fold) :
    (keys.postorder ++ [[]]).Pairwise fun earlier later => ¬earlier <+: later := by
  rw [List.pairwise_append]
  refine ⟨Subkeys.postorder_pairwise hkeys, List.pairwise_singleton _ _, ?_⟩
  intro earlier hearlier later hlater hprefix
  obtain rfl := List.mem_singleton.1 hlater
  obtain ⟨name, -, deeper, rfl⟩ := (Subkeys.mem_postorder.1 hearlier).head
  cases List.prefix_nil.1 hprefix

/-- The paths of a well-formed tree, each once and behind those that go on from it. -/
theorem listsTree_postorder {fold : Text → Text} {keys : Subkeys} (hkeys : keys.WellFormed fold)
    (path : Text) : ListsTree path keys (keys.postorder.map (locate path) ++ [path]) := by
  have hlist : keys.postorder.map (locate path) ++ [path] =
      (keys.postorder ++ [[]]).map (locate path) := by
    rw [List.map_append, List.map_singleton, locate, List.flatMap_nil, List.append_nil]
  have hmem : ∀ names, names ∈ keys.postorder ++ [[]] ↔ keys.IsKey names := by
    intro names
    rw [List.mem_append, List.mem_singleton, Subkeys.mem_postorder, Subkeys.IsKey]
    exact or_comm
  have hvalid : ∀ names, keys.IsKey names → ∀ name ∈ names, '\\' ∉ name := by
    rintro names (rfl | hnames) name hname
    · cases hname
    · exact (hnames.valid hkeys name hname).2.1
  have hpairwise := Subkeys.keys_pairwise hkeys
  rw [hlist]
  refine ⟨?_, ?_, ?_⟩
  · intro address
    rw [List.mem_map]
    constructor
    · rintro ⟨names, hnames, rfl⟩
      exact ⟨names, (hmem names).1 hnames, rfl⟩
    · rintro ⟨names, hnames, rfl⟩
      exact ⟨names, (hmem names).2 hnames, rfl⟩
  · rw [List.Nodup, List.pairwise_map]
    apply hpairwise.imp_of_mem
    intro earlier later hearlier hlater hprefix hsame
    apply hprefix
    rw [locate_injective (hvalid _ ((hmem _).1 hearlier)) (hvalid _ ((hmem _).1 hlater)) hsame]
  · intro names deeper front back hkey hne hsplit
    obtain ⟨frontNames, tail, hnames, hfront, htail⟩ := List.map_eq_append_iff.1 hsplit
    obtain ⟨current, backNames, rfl, hcurrent, -⟩ := List.map_eq_cons_iff.1 htail
    have hcurrentKey : keys.IsKey current := (hmem current).1 (by rw [hnames]; simp)
    have hfrontKey : ∀ name ∈ names, '\\' ∉ name := fun name hname =>
      hvalid _ hkey name (List.mem_append_left _ hname)
    obtain rfl : current = names :=
      locate_injective (hvalid current hcurrentKey) hfrontKey hcurrent
    rw [hnames, List.pairwise_append, List.pairwise_cons] at hpairwise
    have hlisted : current ++ deeper ∈ frontNames ++ current :: backNames :=
      hnames ▸ (hmem _).2 hkey
    rw [← hfront]
    apply List.mem_map_of_mem
    rcases List.mem_append.1 hlisted with h | h
    · exact h
    · exfalso
      rcases List.mem_cons.1 h with h | h
      · exact hne (List.append_right_eq_self.1 h)
      · exact hpairwise.2.1.1 _ h (List.prefix_append _ _)

/-! ## Names that end in a blank -/

theorem rdropWhile_append_cons {p : Char → Bool} {c : Char} (hc : p c = false) (front back : Text) :
    (front ++ c :: back).rdropWhile p = front ++ c :: back.rdropWhile p := by
  rw [List.rdropWhile, List.rdropWhile, List.reverse_append, List.reverse_cons, List.append_assoc,
    List.dropWhile_append]
  split
  next hempty =>
    rw [List.isEmpty_iff.1 hempty, List.singleton_append, List.dropWhile_cons_of_neg (by simp [hc])]
    simp
  next => simp

theorem getLast?_of_dropWhile {p : Char → Bool} {path : Text} (hne : path.dropWhile p ≠ []) :
    path.getLast? = (path.dropWhile p).getLast? := by
  obtain ⟨front, hfront⟩ := List.dropWhile_suffix (l := path) p
  conv_lhs => rw [← hfront, List.getLast?_append_of_ne_nil _ hne]

/-- Only the key is trimmed in front and only the name behind. -/
theorem trim_child (path name : Text) :
    trim (path ++ '\\' :: name) =
      path.dropWhile isAsciiWhitespace ++ '\\' :: name.rdropWhile isAsciiWhitespace := by
  have hleft : (path ++ '\\' :: name).dropWhile isAsciiWhitespace =
      path.dropWhile isAsciiWhitespace ++ '\\' :: name := by
    rw [List.dropWhile_append]
    split
    next hempty =>
      rw [List.isEmpty_iff.1 hempty, List.nil_append, List.dropWhile_cons_of_neg (by decide)]
    next => rfl
  rw [trim, hleft, rdropWhile_append_cons (by decide)]

/-- Of a name of blanks nothing is left, and the backslash in front of it goes with it. -/
theorem stripped_child_blank {path name : Text} (hclosed : ∀ c ∈ path.getLast?, c ≠ '\\')
    (hempty : name.rdropWhile isAsciiWhitespace = []) :
    stripped (path ++ '\\' :: name) = path.dropWhile isAsciiWhitespace := by
  rw [stripped, trim_child, hempty, List.rdropWhile_concat_pos _ _ _ (by decide),
    List.rdropWhile_eq_self_iff]
  intro hne hslash
  apply hclosed _ _ (beq_iff_eq.1 hslash)
  rw [getLast?_of_dropWhile hne]
  exact List.getLast?_eq_some_getLast hne

/-- The end of any other name is trimmed with the key path it ends. -/
theorem last_stripped_child {path name : Text} (hname : '\\' ∉ name)
    (hne : name.rdropWhile isAsciiWhitespace ≠ []) :
    (stripped (path ++ '\\' :: name)).getLast? =
      some ((name.rdropWhile isAsciiWhitespace).getLast hne) := by
  have hlast : (name.rdropWhile isAsciiWhitespace).getLast hne ≠ '\\' := by
    intro hslash
    apply hname
    rw [← hslash]
    exact (List.rdropWhile_prefix isAsciiWhitespace name).subset (List.getLast_mem hne)
  have hback : (path.dropWhile isAsciiWhitespace ++
      '\\' :: name.rdropWhile isAsciiWhitespace).rdropWhile (· == '\\') =
        path.dropWhile isAsciiWhitespace ++ '\\' :: name.rdropWhile isAsciiWhitespace := by
    rw [List.rdropWhile_eq_self_iff]
    intro _ hslash
    rw [List.getLast_append_of_ne_nil _ (List.cons_ne_nil _ _), List.getLast_cons hne] at hslash
    exact hlast (beq_iff_eq.1 hslash)
  rw [stripped, trim_child, hback, List.getLast?_append_of_ne_nil _ (List.cons_ne_nil _ _),
    List.getLast?_cons_of_ne_nil hne, List.getLast?_eq_some_getLast hne]

theorem not_endsInBlank_child {path name : Text} (hpath : ¬EndsInBlank path)
    (hclosed : ∀ c ∈ path.getLast?, c ≠ '\\') (hname : '\\' ∉ name) :
    ¬EndsInBlank (stripped (path ++ '\\' :: name)) := by
  rintro ⟨c, hlast, hblank⟩
  by_cases hempty : name.rdropWhile isAsciiWhitespace = []
  · rw [stripped_child_blank hclosed hempty] at hlast
    have hne : path.dropWhile isAsciiWhitespace ≠ [] := by
      intro hnil
      rw [hnil] at hlast
      cases hlast
    apply hpath
    refine ⟨c, ?_, hblank⟩
    rwa [getLast?_of_dropWhile hne]
  · rw [last_stripped_child hname hempty] at hlast
    obtain rfl := Option.some_inj.1 hlast
    exact List.rdropWhile_last_not isAsciiWhitespace name hempty hblank

theorem closed_normalize (key : Text) : ∀ c ∈ (normalize key).getLast?, c ≠ '\\' :=
  last_expandHive (last_stripped key)

theorem not_endsInBlank_normalize {key : Text} (hkey : ¬EndsInBlank (stripped key)) :
    ¬EndsInBlank (normalize key) := by
  rwa [normalize_eq, endsInBlank_expandHive]

theorem Subkeys.valid_of_mem_names {fold : Text → Text} {keys : Subkeys}
    (hkeys : keys.WellFormed fold) {name : Text} (hname : name ∈ keys.names) :
    IsName name := by
  induction keys with
  | none => cases hname
  | key first below others _ hothers =>
      obtain ⟨hfirst, -, -, hkeysOthers⟩ := hkeys
      rcases List.mem_cons.1 hname with rfl | hname
      · exact hfirst
      · exact hothers hkeysOthers hname

namespace Registry

variable {fold : Text → Text} {registry : Registry fold}

/-- Only a key under one of the root keys can be opened. -/
theorem longForm_of_open {key : Text} {opened : Option Subkeys}
    (hkey : ¬EndsInBlank (stripped key))
    (hopen : registry.openForRead (normalize key) = .ok opened) : LongForm (normalize key) := by
  cases hhive : hiveOf (stripped key) with
  | some hive =>
      rw [normalize_eq, expandHive_of_some hhive]
      exact ⟨hive, mem_of_hiveOf hhive, _, rfl, dropWhile_backslash _⟩
  | none =>
      have hnormal : normalize key = stripped key := by
        rw [normalize_eq, expandHive_of_none hhive]
      have hfind : (registryHiveNames.find? fun candidate =>
          toUpperAscii ((stripped key).takeWhile (· != '\\')) == candidate.longForm) = none := by
        rw [List.find?_eq_none]
        intro candidate hmem hform
        have hneither := List.find?_eq_none.1 hhive candidate hmem
        exact hneither (by rw [Bool.or_eq_true]; exact Or.inr hform)
      have haddress : resolveAddress (normalize key) = .error .invalidParameter := by
        rw [resolveAddress, normalize_normalize hkey, hnormal]
        simp only [hfind]
        split <;> rfl
      rw [openForRead, haddress] at hopen
      cases hopen

/-- No path that is listed ends in a blank. -/
theorem collectKeyTree_visible {fuel : ℕ} {key : Text} {listed : List Text}
    (hkey : ¬EndsInBlank (stripped key))
    (hlisted : registry.collectKeyTree fuel key = .ok listed) :
    ∀ address ∈ listed, ¬EndsInBlank address := by
  induction fuel generalizing key listed with
  | zero => cases hlisted
  | succ fuel ih =>
      have hnormal := not_endsInBlank_normalize hkey
      cases hopen : registry.openForRead (normalize key) with
      | error failure =>
          rw [collectKeyTree, keyExists, hopen] at hlisted
          cases hlisted
      | ok opened =>
          cases opened with
          | none =>
              rw [collectKeyTree, keyExists, hopen] at hlisted
              obtain rfl : [] = listed := Except.ok.inj hlisted
              intro address hmem
              cases hmem
          | some keys =>
              rw [collectKeyTree_found hopen fuel] at hlisted
              cases hmap : keys.names.mapM fun child =>
                  registry.collectKeyTree fuel (normalize key ++ '\\' :: child) with
              | error failure =>
                  rw [hmap] at hlisted
                  cases hlisted
              | ok lists =>
                  rw [hmap] at hlisted
                  obtain rfl := Except.ok.inj hlisted
                  intro address hmem
                  rcases List.mem_append.1 hmem with hmem | hmem
                  · obtain ⟨list, hlist, haddress⟩ := List.mem_flatten.1 hmem
                    obtain ⟨child, hchild, hresult⟩ :=
                      ExceptTraverse.exists_item_of_mem hmap hlist
                    have hclosed := (Subkeys.valid_of_mem_names (wellFormed_of_open hopen)
                      hchild).2.1
                    exact ih (not_endsInBlank_child hnormal (closed_normalize key) hclosed)
                      hresult address haddress
                  · rw [List.mem_singleton.1 hmem]
                    exact hnormal

/-- A key whose name ends in a blank is not listed. -/
theorem not_listsTree_of_blank {fuel : ℕ} {key name : Text} {keys : Subkeys} {path : List Text}
    {listed : List Text} (hkey : ¬EndsInBlank (stripped key))
    (hlisted : registry.collectKeyTree fuel key = .ok listed)
    (hhas : keys.Has (path ++ [name])) (hblank : EndsInBlank name) :
    ¬ListsTree (normalize key) keys listed := by
  intro hlists
  have hmem : locate (normalize key) (path ++ [name]) ∈ listed :=
    (hlists.each _).2 ⟨path ++ [name], Or.inr hhas, rfl⟩
  apply collectKeyTree_visible hkey hlisted _ hmem
  have hne : name ≠ [] := by
    rintro rfl
    obtain ⟨c, hlast, -⟩ := hblank
    cases hlast
  rw [locate, List.flatMap_append, List.flatMap_singleton, ← List.append_assoc,
    ← List.singleton_append, ← List.append_assoc, endsInBlank_append hne]
  exact hblank

/-- What is deleted or committed are the listed keys in their order. -/
theorem planned_in_order {fuel : ℕ} {key : Text} {listed : List Text}
    (hkey : ¬EndsInBlank (stripped key))
    (hlisted : registry.collectKeyTree fuel key = .ok listed) (valueNames : Text → List Text) :
    registry.planRegistryTreeDeletion fuel key = .ok (listed.map fun current => ⟨current, []⟩) ∧
      registry.planRegistryTreeCommit valueNames fuel key =
        .ok (listed.flatMap fun current => (valueNames current).map fun valueName =>
          ⟨current, valueName⟩) := by
  have hfixed := normalize_normalize hkey
  have hsame : registry.collectKeyTree fuel (normalize key) = .ok listed := by
    cases fuel with
    | zero => cases hlisted
    | succ fuel =>
        rw [collectKeyTree] at hlisted ⊢
        rwa [hfixed]
  rw [planRegistryTreeDeletion, planRegistryTreeCommit, hsame]
  exact ⟨rfl, rfl⟩

/-- The tree of a key is listed completely and from below, and so deleted and committed,
exactly when no key below it has a name that ends in a blank. -/
theorem collectKeyTree_lists_iff {fold : Text → Text} (registry : Registry fold)
    (valueNames : Text → List Text) (key : Text) (keys : Subkeys)
    (hkey : ¬EndsInBlank (stripped key))
    (hopen : registry.openForRead (normalize key) = .ok (some keys)) :
    (∃ fuel listed, registry.collectKeyTree fuel key = .ok listed ∧
      ListsTree (normalize key) keys listed ∧
      registry.planRegistryTreeDeletion fuel key = .ok (listed.map fun current => ⟨current, []⟩) ∧
      registry.planRegistryTreeCommit valueNames fuel key =
        .ok (listed.flatMap fun current => (valueNames current).map fun valueName =>
          ⟨current, valueName⟩)) ↔
      ∀ path name, keys.Has (path ++ [name]) → ¬EndsInBlank name := by
  constructor
  · rintro ⟨fuel, listed, hlisted, hlists, -⟩ path name hhas hblank
    exact not_listsTree_of_blank hkey hlisted hhas hblank hlists
  · intro hvisible
    have hkeys := wellFormed_of_open hopen
    have hpath : IsAddress (normalize key) :=
      ⟨longForm_of_open hkey hopen, not_endsInBlank_normalize hkey, closed_normalize key⟩
    obtain ⟨lists, hlists, hflatten⟩ := mapM_collectKeyTree hkeys hvisible hpath hopen
      (Subkeys.among_self hkeys) le_rfl
    have hlisted : registry.collectKeyTree (keys.depth + 1) key =
        .ok (keys.postorder.map (locate (normalize key)) ++ [normalize key]) := by
      rw [collectKeyTree_found hopen, hlists, ← hflatten]
      rfl
    exact ⟨keys.depth + 1, _, hlisted, listsTree_postorder hkeys _,
      planned_in_order hkey hlisted valueNames⟩

/-- A registry with one key, right under `HKEY_LOCAL_MACHINE`. -/
def withKey (name : Text) (hname : Subkeys.IsName name) : Registry toUpperAscii where
  hives hive := if hive = "HKEY_LOCAL_MACHINE".toList then .key name .none .none else .none
  wellFormed := by
    intro hive
    split
    · exact ⟨hname, by simp [Subkeys.names], trivial, trivial⟩
    · trivial

theorem collectKeyTree_lists_iff_withKey :
    ∃ fuel listed,
      (withKey "Software".toList (by decide)).collectKeyTree fuel "hklm\\".toList = .ok listed ∧
        ListsTree "HKEY_LOCAL_MACHINE".toList (.key "Software".toList .none .none) listed := by
  have hvisible : ∀ path name,
      (Subkeys.key "Software".toList .none .none).Has (path ++ [name]) → ¬EndsInBlank name := by
    intro path name hhas
    have hpath : path ++ [name] = [] ++ ["Software".toList] := by
      rcases hhas with h | ⟨deeper, -, h⟩ | h
      · exact h
      · exact h.elim
      · exact h.elim
    rw [List.singleton_inj.1 (List.append_inj' hpath rfl).2]
    decide
  obtain ⟨fuel, listed, hlisted, hlists, -⟩ :=
    (collectKeyTree_lists_iff (withKey "Software".toList (by decide)) (fun _ => [])
      "hklm\\".toList (.key "Software".toList .none .none) (by decide +kernel) (by rfl)).2 hvisible
  exact ⟨fuel, listed, hlisted, hlists⟩

/-- The blank at the end of the name is trimmed with the path: the key is looked for under
another name, and it is missing in the list. -/
theorem blank_name_not_listed :
    let registry := withKey "Software ".toList (by decide)
    registry.openForRead "HKEY_LOCAL_MACHINE".toList =
        .ok (some (.key "Software ".toList .none .none)) ∧
      registry.collectKeyTree 2 "HKEY_LOCAL_MACHINE".toList =
        .ok ["HKEY_LOCAL_MACHINE".toList] ∧
      ¬ListsTree "HKEY_LOCAL_MACHINE".toList (.key "Software ".toList .none .none)
        ["HKEY_LOCAL_MACHINE".toList] := by
  refine ⟨rfl, rfl, ?_⟩
  intro hlists
  have hmem := (hlists.each "HKEY_LOCAL_MACHINE\\Software ".toList).2
    ⟨["Software ".toList], Or.inr (Or.inl rfl), by decide⟩
  revert hmem
  decide

end Registry

end RegKey

end UwfManager
