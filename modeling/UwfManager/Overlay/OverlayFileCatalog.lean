import Mathlib.Algebra.GroupWithZero.Nat
import Mathlib.Data.List.Infix
import Mathlib.Data.List.Sort
import UwfManager.Library.GroupByKey
import UwfManager.Paths.PathPolicy

/-!
# The catalog of overlay files

The records of an overlay are merged by path: the streams of a file are one entry, and its
size is the sum of theirs.  Sizes that are too large stay at the maximum.
-/

namespace UwfManager

structure OverlayFileEntry where
  rawName : Text
  absolutePath : Text := []
  isDirectory : Bool := false
  isSystemMetadata : Bool := false
  fileSize : UInt64 := 0
  deriving DecidableEq

/-- `QString::toLower` maps one character after the other; `compare` is `QString::compare`
under `Qt::CaseInsensitive`. -/
structure QStringCase where
  lower : Char → Text
  compare : Text → Text → Ordering

namespace QStringCase

variable (text : QStringCase)

def toLower (s : Text) : Text := s.flatMap text.lower

/-- The comparison is an order, it tells the same paths apart as the lower case does, and only
the backslash and the dollar sign have themselves as their lower case. -/
structure Lawful : Prop where
  swap : ∀ a b, text.compare b a = (text.compare a b).swap
  trans : ∀ a b c, text.compare a b ≠ .gt → text.compare b c ≠ .gt → text.compare a c ≠ .gt
  same : ∀ a b, text.compare a b = .eq ↔ text.toLower a = text.toLower b
  backslash : text.lower '\\' = ['\\']
  noBackslash : ∀ c, c ≠ '\\' → '\\' ∉ text.lower c
  dollar : ∀ c, (text.lower c).head? = some '$' ↔ c = '$'
  visible : ∀ c, text.lower c ≠ []

/-- The case mappings on ASCII characters. -/
def ascii : QStringCase where
  lower c := [lowerAscii c]
  compare a b :=
    if toLowerAscii a = toLowerAscii b then .eq
    else if toLowerAscii a < toLowerAscii b then .lt
    else .gt

theorem toLower_ascii (s : Text) : ascii.toLower s = toLowerAscii s :=
  List.flatMap_pure_eq_map lowerAscii s

theorem compare_ascii_eq_iff (a b : Text) :
    ascii.compare a b = .eq ↔ toLowerAscii a = toLowerAscii b := by
  simp only [ascii]
  split_ifs <;> simp_all

theorem compare_ascii_gt_iff (a b : Text) :
    ascii.compare a b = .gt ↔ toLowerAscii b < toLowerAscii a := by
  simp only [ascii]
  split_ifs with hsame hless
  · simp [hsame]
  · simp [hless.le]
  · simpa using lt_of_le_of_ne (not_lt.1 hless) (Ne.symm hsame)

theorem swap_compare_ascii (a b : Text) : ascii.compare b a = (ascii.compare a b).swap := by
  cases hcompare : ascii.compare a b with
  | eq => exact (compare_ascii_eq_iff b a).2 ((compare_ascii_eq_iff a b).1 hcompare).symm
  | gt =>
      have hless := (compare_ascii_gt_iff a b).1 hcompare
      simp only [ascii, if_neg hless.ne, if_pos hless]
      rfl
  | lt =>
      apply (compare_ascii_gt_iff b a).2
      rcases lt_trichotomy (toLowerAscii a) (toLowerAscii b) with h | h | h
      · exact h
      · rw [(compare_ascii_eq_iff a b).2 h] at hcompare
        cases hcompare
      · rw [(compare_ascii_gt_iff a b).2 h] at hcompare
        cases hcompare

theorem ascii_lawful : ascii.Lawful where
  swap := swap_compare_ascii
  trans a b c hab hbc := by
    rw [Ne, compare_ascii_gt_iff, not_lt] at hab hbc ⊢
    exact hab.trans hbc
  same a b := by
    rw [toLower_ascii, toLower_ascii]
    exact compare_ascii_eq_iff a b
  backslash := rfl
  noBackslash c hc hmem := by
    have hsame : '\\' = lowerAscii c := List.mem_singleton.1 hmem
    exact hc ((lowerAscii_eq_iff (by decide) (by decide)).1 hsame.symm)
  dollar c := by
    change some (lowerAscii c) = some '$' ↔ c = '$'
    rw [Option.some_inj]
    exact lowerAscii_eq_iff (by decide) (by decide)
  visible c := List.cons_ne_nil _ _

end QStringCase

namespace OverlayFileCatalog

def maximum : UInt64 := 18446744073709551615

def saturatingSizeSum (left right : UInt64) : UInt64 :=
  if right > maximum - left then maximum else left + right

/-- `QString::lastIndexOf` -/
def lastIndexOf (s : Text) (c : Char) : ℤ :=
  match s.reverse.findIdx? (· == c) with
  | some fromEnd => s.length - 1 - fromEnd
  | none => -1

/-- `QString::indexOf` -/
def indexOf (s : Text) (c : Char) (start : ℤ) : ℤ :=
  match (s.drop start.toNat).findIdx? (· == c) with
  | some index => start + index
  | none => -1

variable (qt : Qt) (text : QStringCase)

def indexAllocation : Text := ":$INDEX_ALLOCATION".toList

def namesIndexAllocation (s : Text) : Bool :=
  decide (indexAllocation.map qt.foldCase <:+: s.map qt.foldCase)

/-- The absolute path without a stream. -/
def absolutePathOf (driveLetter rawName : Text) : Text :=
  let lastSlash := lastIndexOf rawName '\\'
  let searchFrom := if lastSlash ≥ 0 then lastSlash else 0
  let streamColon := indexOf rawName ':' searchFrom
  let s := if streamColon > searchFrom then rawName.take streamColon.toNat else rawName
  qt.toNativeSeparators (if s.head? = some '\\' then driveLetter ++ s else s)

/-- A part of the path behind the first one begins with a dollar sign. -/
def hasMetadataSegment (path : Text) : Bool :=
  (((path.splitOn '\\').filter fun segment => !segment.isEmpty).drop 1).any fun segment =>
    segment.head? == some '$'

def normalizeOverlayEntry (driveLetter : Text) (e : OverlayFileEntry) : OverlayFileEntry :=
  let absolutePath := absolutePathOf qt driveLetter e.rawName
  { e with
    isDirectory := if namesIndexAllocation qt e.rawName then true else e.isDirectory
    absolutePath
    isSystemMetadata := hasMetadataSegment absolutePath }

/-- The name and the path of the first record stay. -/
def mergeEntry (dst e : OverlayFileEntry) : OverlayFileEntry :=
  { dst with
    fileSize := saturatingSizeSum dst.fileSize e.fileSize
    isDirectory := if e.isDirectory then true else dst.isDirectory
    isSystemMetadata := if e.isSystemMetadata then true else dst.isSystemMetadata }

def keyOf (e : OverlayFileEntry) : Text := text.toLower e.absolutePath

/-- Not behind the other entry in the catalog. -/
def NotBehind (a b : OverlayFileEntry) : Prop :=
  text.compare a.absolutePath b.absolutePath ≠ .gt

instance : DecidableRel (NotBehind text) := fun a b =>
  inferInstanceAs (Decidable (text.compare a.absolutePath b.absolutePath ≠ .gt))

def dedup (driveLetter : Text) (entries : List OverlayFileEntry) : List OverlayFileEntry :=
  GroupByKey.group (keyOf text) mergeEntry (entries.map (normalizeOverlayEntry qt driveLetter))

/-- `std::ranges::sort`; no two of the sorted entries are equal under the comparison. -/
def buildOverlayFileCatalog (driveLetter : Text) (entries : List OverlayFileEntry) :
    List OverlayFileEntry :=
  (dedup qt text driveLetter entries).insertionSort (NotBehind text)

def overlayFileCatalogSize (entries : List OverlayFileEntry) : UInt64 :=
  entries.foldl (fun total entry => saturatingSizeSum total entry.fileSize) 0

/-! ## Saturating sums -/

theorem saturatingSizeSum_toNat (left right : UInt64) :
    (saturatingSizeSum left right).toNat = min (2 ^ 64 - 1) (left.toNat + right.toNat) := by
  have hmax : maximum.toNat = 2 ^ 64 - 1 := rfl
  have hleft := left.toNat_lt
  have hdiff : (maximum - left).toNat = 2 ^ 64 - 1 - left.toNat := by
    rw [UInt64.toNat_sub_of_le, hmax]
    rw [UInt64.le_iff_toNat_le, hmax]
    omega
  rw [saturatingSizeSum]
  by_cases hlarge : right > maximum - left
  · rw [if_pos hlarge]
    have hright := UInt64.lt_iff_toNat_lt.1 hlarge
    omega
  · rw [if_neg hlarge, UInt64.toNat_add]
    have hright := mt UInt64.lt_iff_toNat_lt.2 hlarge
    omega

/-- What merging adds up: the size and the flags. -/
@[ext] structure OverlaySummary where
  size : UInt64
  isDirectory : Bool
  isSystemMetadata : Bool

namespace OverlaySummary

instance : Add OverlaySummary :=
  ⟨fun a b => ⟨saturatingSizeSum a.size b.size, a.isDirectory || b.isDirectory,
    a.isSystemMetadata || b.isSystemMetadata⟩⟩

instance : Zero OverlaySummary := ⟨⟨0, false, false⟩⟩

theorem add_def (a b : OverlaySummary) :
    a + b = ⟨saturatingSizeSum a.size b.size, a.isDirectory || b.isDirectory,
      a.isSystemMetadata || b.isSystemMetadata⟩ := rfl

theorem add_assoc' (a b c : OverlaySummary) : a + b + c = a + (b + c) := by
  ext
  · apply congrArg UInt64.toNat
    rw [← UInt64.toNat_inj]
    simp only [add_def, saturatingSizeSum_toNat]
    omega
  · exact Bool.or_assoc _ _ _
  · exact Bool.or_assoc _ _ _

theorem add_comm' (a b : OverlaySummary) : a + b = b + a := by
  ext
  · apply congrArg UInt64.toNat
    rw [← UInt64.toNat_inj]
    simp only [add_def, saturatingSizeSum_toNat]
    omega
  · exact Bool.or_comm _ _
  · exact Bool.or_comm _ _

theorem zero_add' (a : OverlaySummary) : 0 + a = a := by
  have hsize := a.size.toNat_lt
  ext
  · apply congrArg UInt64.toNat
    rw [← UInt64.toNat_inj]
    change (saturatingSizeSum 0 a.size).toNat = a.size.toNat
    rw [saturatingSizeSum_toNat, UInt64.toNat_zero]
    omega
  · exact Bool.false_or _
  · exact Bool.false_or _

instance : AddCommMonoid OverlaySummary where
  add_assoc := add_assoc'
  zero_add := zero_add'
  add_zero a := (add_comm' a 0).trans (zero_add' a)
  add_comm := add_comm'
  nsmul := nsmulRec

end OverlaySummary

def summary (e : OverlayFileEntry) : OverlaySummary :=
  ⟨e.fileSize, e.isDirectory, e.isSystemMetadata⟩

theorem summary_mergeEntry (dst e : OverlayFileEntry) :
    summary (mergeEntry dst e) = summary dst + summary e := by
  cases hdirectory : e.isDirectory <;> cases hmetadata : e.isSystemMetadata <;>
    simp [summary, mergeEntry, OverlaySummary.add_def, hdirectory, hmetadata]

theorem overlayFileCatalogSize_eq (entries : List OverlayFileEntry) :
    overlayFileCatalogSize entries = (entries.map summary).sum.size := by
  induction entries using List.reverseRecOn with
  | nil => rfl
  | append_singleton entries e ih =>
      have hstep : overlayFileCatalogSize (entries ++ [e]) =
          saturatingSizeSum (overlayFileCatalogSize entries) e.fileSize := by
        rw [overlayFileCatalogSize, List.foldl_append, List.foldl_cons, List.foldl_nil,
          overlayFileCatalogSize]
      rw [hstep, ih, List.map_append, List.sum_append, List.map_singleton, List.sum_singleton,
        OverlaySummary.add_def, summary]

/-- The normalization leaves the sizes. -/
theorem overlayFileCatalogSize_normalize (driveLetter : Text) (entries : List OverlayFileEntry) :
    overlayFileCatalogSize (entries.map (normalizeOverlayEntry qt driveLetter)) =
      overlayFileCatalogSize entries := by
  rw [overlayFileCatalogSize, List.foldl_map]
  rfl

/-! ## Entries that stand for a path -/

theorem keyOf_mergeEntry (dst e : OverlayFileEntry) :
    keyOf text (mergeEntry dst e) = keyOf text dst := rfl

theorem nodup_dedup (driveLetter : Text) (entries : List OverlayFileEntry) :
    ((dedup qt text driveLetter entries).map (keyOf text)).Nodup :=
  GroupByKey.nodup_group (fun dst e _ => keyOf_mergeEntry text dst e) _

theorem perm_dedup (driveLetter : Text) (entries : List OverlayFileEntry) :
    (buildOverlayFileCatalog qt text driveLetter entries).Perm
      (dedup qt text driveLetter entries) := List.perm_insertionSort _ _

/-- No size is lost. -/
theorem overlayFileCatalogSize_build (driveLetter : Text) (entries : List OverlayFileEntry) :
    overlayFileCatalogSize (buildOverlayFileCatalog qt text driveLetter entries) =
      overlayFileCatalogSize entries := by
  have hperm := perm_dedup qt text driveLetter entries
  calc overlayFileCatalogSize (buildOverlayFileCatalog qt text driveLetter entries)
      = ((dedup qt text driveLetter entries).map summary).sum.size := by
        rw [overlayFileCatalogSize_eq, (hperm.map summary).sum_eq]
    _ = overlayFileCatalogSize (entries.map (normalizeOverlayEntry qt driveLetter)) := by
        rw [dedup, GroupByKey.sum_group summary_mergeEntry, overlayFileCatalogSize_eq]
    _ = overlayFileCatalogSize entries := overlayFileCatalogSize_normalize qt driveLetter entries

/-- The entry of a path is the first of its key among the merged ones, whatever the order. -/
theorem find?_build (driveLetter : Text) (entries : List OverlayFileEntry) (path : Text) :
    ((buildOverlayFileCatalog qt text driveLetter entries).find? fun e =>
        text.toLower e.absolutePath = text.toLower path) =
      (dedup qt text driveLetter entries).find? fun e => keyOf text e = text.toLower path := by
  have hperm := perm_dedup qt text driveLetter entries
  exact GroupByKey.find?_perm hperm
    ((hperm.map _).nodup_iff.2 (nodup_dedup qt text driveLetter entries)) _

section Lawful

variable {qt text} (htext : text.Lawful)
include htext

theorem toLower_eq_nil_iff (s : Text) : text.toLower s = [] ↔ s = [] := by
  cases s with
  | nil => exact iff_of_true rfl rfl
  | cons c s =>
      refine iff_of_false ?_ (List.cons_ne_nil c s)
      rw [QStringCase.toLower, List.flatMap_cons, List.append_eq_nil_iff]
      intro h
      exact htext.visible c h.1

theorem head?_toLower (s : Text) :
    (text.toLower s).head? = some '$' ↔ s.head? = some '$' := by
  cases s with
  | nil => rfl
  | cons c s =>
      rw [QStringCase.toLower, List.flatMap_cons, List.head?_append_of_ne_nil _ (htext.visible c),
        List.head?_cons, Option.some_inj]
      exact htext.dollar c

omit htext in
/-- A text without the separator stays with the first part. -/
theorem splitOn_append {front back : Text} (hfront : '\\' ∉ front) :
    (front ++ back).splitOn '\\' = (back.splitOn '\\').modifyHead (front ++ ·) := by
  induction front with
  | nil =>
      cases hback : back.splitOn '\\' with
      | nil => exact absurd hback (List.splitOn_ne_nil _ _)
      | cons first rest => rw [List.nil_append, hback]; rfl
  | cons c front ih =>
      rw [List.mem_cons, not_or] at hfront
      rw [List.cons_append, List.splitOn_cons_eq_if_modifyHead,
        if_neg (by simpa using Ne.symm hfront.1), ih hfront.2]
      cases back.splitOn '\\' <;> rfl

theorem toLower_splitOn (s : Text) :
    (text.toLower s).splitOn '\\' = (s.splitOn '\\').map text.toLower := by
  induction s with
  | nil => rfl
  | cons c s ih =>
      have hcons : text.toLower (c :: s) = text.lower c ++ text.toLower s := List.flatMap_cons
      rw [hcons, List.splitOn_cons_eq_if_modifyHead]
      by_cases hc : c = '\\'
      · subst hc
        rw [htext.backslash, if_pos (beq_self_eq_true _), List.singleton_append,
          List.splitOn_cons_eq_if_modifyHead, if_pos (beq_self_eq_true _), ih]
        rfl
      · rw [splitOn_append (htext.noBackslash c hc), ih, if_neg (by simpa using hc)]
        cases s.splitOn '\\' <;> rfl

/-- Whether a path is metadata can be seen from its lower case. -/
theorem hasMetadataSegment_toLower (path : Text) :
    hasMetadataSegment (text.toLower path) = hasMetadataSegment path := by
  have hempty : ∀ segment, (!(text.toLower segment).isEmpty) = !segment.isEmpty := by
    intro segment
    rw [Bool.eq_iff_iff]
    simp [toLower_eq_nil_iff htext]
  have hdollar : ∀ segment,
      ((text.toLower segment).head? == some '$') = (segment.head? == some '$') := by
    intro segment
    rw [Bool.eq_iff_iff, beq_iff_eq, beq_iff_eq]
    exact head?_toLower htext segment
  rw [hasMetadataSegment, toLower_splitOn htext, List.filter_map, ← List.map_drop, List.any_map,
    hasMetadataSegment]
  have hfilter : (fun segment : Text => !segment.isEmpty) ∘ text.toLower =
      fun segment => !segment.isEmpty := funext hempty
  have hany : (fun segment : Text => segment.head? == some '$') ∘ text.toLower =
      fun segment => segment.head? == some '$' := funext hdollar
  rw [hfilter, hany]

/-! ## Building again -/

/-- An entry that the normalization for the drive leaves as it is. -/
def Normalized (qt : Qt) (driveLetter : Text) (e : OverlayFileEntry) : Prop :=
  normalizeOverlayEntry qt driveLetter e = e

omit htext in
theorem normalized_iff (driveLetter : Text) (e : OverlayFileEntry) :
    Normalized qt driveLetter e ↔
      e.absolutePath = absolutePathOf qt driveLetter e.rawName ∧
      (namesIndexAllocation qt e.rawName = true → e.isDirectory = true) ∧
      e.isSystemMetadata = hasMetadataSegment e.absolutePath := by
  obtain ⟨rawName, absolutePath, isDirectory, isSystemMetadata, fileSize⟩ := e
  simp only [Normalized, normalizeOverlayEntry, OverlayFileEntry.mk.injEq, true_and, and_true]
  constructor
  · rintro ⟨rfl, hdirectory, hmetadata⟩
    refine ⟨rfl, ?_, hmetadata.symm⟩
    intro hnames
    rw [if_pos hnames] at hdirectory
    exact hdirectory.symm
  · rintro ⟨rfl, hdirectory, hmetadata⟩
    refine ⟨rfl, ?_, hmetadata.symm⟩
    split
    next hnames => exact (hdirectory hnames).symm
    next => rfl

omit htext in
theorem normalized_normalize (driveLetter : Text) (e : OverlayFileEntry) :
    Normalized qt driveLetter (normalizeOverlayEntry qt driveLetter e) := by
  rw [normalized_iff]
  refine ⟨rfl, ?_, rfl⟩
  intro hnames
  exact if_pos hnames

/-- Entries of one path have the same metadata flag, so merging keeps an entry normalized. -/
theorem Normalized.merge {driveLetter : Text} {dst e : OverlayFileEntry}
    (hdst : Normalized qt driveLetter dst) (he : Normalized qt driveLetter e)
    (hkey : keyOf text dst = keyOf text e) : Normalized qt driveLetter (mergeEntry dst e) := by
  rw [normalized_iff] at hdst he ⊢
  obtain ⟨hpath, hdirectory, hmetadata⟩ := hdst
  refine ⟨hpath, ?_, ?_⟩
  · intro hnames
    change (if e.isDirectory then true else dst.isDirectory) = true
    rw [hdirectory hnames]
    split <;> rfl
  · have hsame : e.isSystemMetadata = dst.isSystemMetadata := by
      rw [he.2.2, hmetadata, ← hasMetadataSegment_toLower htext e.absolutePath,
        ← hasMetadataSegment_toLower htext dst.absolutePath]
      exact congrArg hasMetadataSegment hkey.symm
    calc (if e.isSystemMetadata then true else dst.isSystemMetadata)
        = dst.isSystemMetadata := by rw [hsame]; cases dst.isSystemMetadata <;> rfl
      _ = hasMetadataSegment dst.absolutePath := hmetadata

theorem normalized_insert {driveLetter : Text} {e : OverlayFileEntry}
    {entries : List OverlayFileEntry} (he : Normalized qt driveLetter e)
    (hentries : ∀ other ∈ entries, Normalized qt driveLetter other) :
    ∀ other ∈ GroupByKey.insert (keyOf text) mergeEntry e entries,
      Normalized qt driveLetter other := by
  induction entries with
  | nil => exact List.forall_mem_singleton.2 he
  | cons first rest ih =>
      obtain ⟨hfirst, hrest⟩ := List.forall_mem_cons.1 hentries
      rw [GroupByKey.insert]
      split
      next hkey => exact List.forall_mem_cons.2 ⟨hfirst.merge htext he hkey, hrest⟩
      next => exact List.forall_mem_cons.2 ⟨hfirst, ih hrest⟩

theorem normalized_dedup (driveLetter : Text) (entries : List OverlayFileEntry) :
    ∀ e ∈ dedup qt text driveLetter entries, Normalized qt driveLetter e := by
  induction entries using List.reverseRecOn with
  | nil =>
      intro e he
      cases he
  | append_singleton entries e ih =>
      rw [dedup, List.map_append, List.map_singleton, GroupByKey.group_concat]
      exact normalized_insert htext (normalized_normalize driveLetter e) ih

/-! ## The order -/

theorem pairwise_notBehind (entries : List OverlayFileEntry) :
    (entries.insertionSort (NotBehind text)).Pairwise (NotBehind text) := by
  have : Std.Total (NotBehind text) := by
    refine ⟨fun a b => ?_⟩
    rw [NotBehind, NotBehind, htext.swap a.absolutePath b.absolutePath]
    cases text.compare a.absolutePath b.absolutePath <;> simp
  have : IsTrans OverlayFileEntry (NotBehind text) := ⟨fun a b c => htext.trans _ _ _⟩
  exact List.pairwise_insertionSort _ _

theorem pairwise_lt (driveLetter : Text) (entries : List OverlayFileEntry) :
    (buildOverlayFileCatalog qt text driveLetter entries).Pairwise fun a b =>
      text.compare a.absolutePath b.absolutePath = .lt := by
  have hnodup : ((buildOverlayFileCatalog qt text driveLetter entries).map (keyOf text)).Nodup :=
    ((perm_dedup qt text driveLetter entries).map _).nodup_iff.2 (nodup_dedup qt text _ _)
  rw [List.Nodup, List.pairwise_map] at hnodup
  apply (hnodup.and (pairwise_notBehind htext _)).imp
  rintro a b ⟨hkey, hbehind⟩
  cases hcompare : text.compare a.absolutePath b.absolutePath with
  | lt => rfl
  | eq => exact absurd ((htext.same _ _).1 hcompare) hkey
  | gt => exact absurd hcompare hbehind

/-- A built catalog is normalized, merged and sorted already. -/
theorem build_build (driveLetter : Text) (entries : List OverlayFileEntry) :
    buildOverlayFileCatalog qt text driveLetter
        (buildOverlayFileCatalog qt text driveLetter entries) =
      buildOverlayFileCatalog qt text driveLetter entries := by
  have hperm := perm_dedup qt text driveLetter entries
  have hnodup := nodup_dedup qt text driveLetter entries
  have hmap : (buildOverlayFileCatalog qt text driveLetter entries).map
      (normalizeOverlayEntry qt driveLetter) =
        buildOverlayFileCatalog qt text driveLetter entries := by
    calc (buildOverlayFileCatalog qt text driveLetter entries).map
          (normalizeOverlayEntry qt driveLetter)
        = (buildOverlayFileCatalog qt text driveLetter entries).map id := by
          apply List.map_congr_left
          intro e he
          exact normalized_dedup htext driveLetter entries e (hperm.mem_iff.1 he)
      _ = buildOverlayFileCatalog qt text driveLetter entries := List.map_id _
  have hdedup : dedup qt text driveLetter (buildOverlayFileCatalog qt text driveLetter entries) =
      buildOverlayFileCatalog qt text driveLetter entries := by
    rw [dedup, hmap]
    exact GroupByKey.group_of_nodup ((hperm.map _).nodup_iff.2 hnodup)
  have hsort : ((buildOverlayFileCatalog qt text driveLetter entries).insertionSort
      (NotBehind text)) = buildOverlayFileCatalog qt text driveLetter entries :=
    (pairwise_notBehind htext _).insertionSort_eq
  rw [buildOverlayFileCatalog, hdedup, hsort]

/-- The catalog is sorted and has an entry for each path, which does not depend on the order of
the records; no size is lost; and building it again changes nothing. -/
theorem catalog_conserves (driveLetter : Text) (entries : List OverlayFileEntry) :
    (buildOverlayFileCatalog qt text driveLetter entries).Pairwise (fun a b =>
        text.compare a.absolutePath b.absolutePath = .lt ∧
          text.toLower a.absolutePath ≠ text.toLower b.absolutePath) ∧
      overlayFileCatalogSize (buildOverlayFileCatalog qt text driveLetter entries) =
        overlayFileCatalogSize entries ∧
      (∀ others, entries.Perm others → ∀ path,
        ((buildOverlayFileCatalog qt text driveLetter entries).find? fun e =>
            text.toLower e.absolutePath = text.toLower path).map summary =
          ((buildOverlayFileCatalog qt text driveLetter others).find? fun e =>
            text.toLower e.absolutePath = text.toLower path).map summary) ∧
      buildOverlayFileCatalog qt text driveLetter
          (buildOverlayFileCatalog qt text driveLetter entries) =
        buildOverlayFileCatalog qt text driveLetter entries := by
  refine ⟨?_, overlayFileCatalogSize_build qt text driveLetter entries, ?_,
    build_build htext driveLetter entries⟩
  · apply (pairwise_lt htext driveLetter entries).imp
    intro a b hlt
    refine ⟨hlt, fun hsame => ?_⟩
    rw [(htext.same _ _).2 hsame] at hlt
    cases hlt
  · intro others hothers path
    rw [find?_build, find?_build]
    exact GroupByKey.measure_find?_group_perm (fun dst e _ => keyOf_mergeEntry text dst e)
      summary_mergeEntry (hothers.map _) _

end Lawful

/-- The streams of a file saturate the size, whatever the other records are. -/
theorem catalog_conserves_ascii :
    overlayFileCatalogSize (buildOverlayFileCatalog Qt.ascii QStringCase.ascii "C:".toList
      [{ rawName := "\\Folder\\Item:stream".toList, fileSize := maximum - 4 },
        { rawName := "\\folder\\ITEM".toList, fileSize := 10 },
        { rawName := "\\$Mft:stream".toList, fileSize := 3 }]) = maximum := by
  rw [(@catalog_conserves Qt.ascii QStringCase.ascii QStringCase.ascii_lawful "C:".toList _).2.1]
  decide

end OverlayFileCatalog

end UwfManager
