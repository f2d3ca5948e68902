import UwfManager.Library.SortUnique
import UwfManager.Shared.Text
import Mathlib.Data.Char
import Mathlib.Data.List.Lex

/-!
# Path comparison

The rules under which two paths are the same, one lies under the other, or a
list of exclusions covers a path.  The functions of `QString` and `QDir` that
depend on Unicode tables and on the file system rules of the platform are
parameters; what is relied on about them is stated where it is used.
-/

namespace UwfManager

/-- The functions of Qt that the model does not define. -/
structure Qt where
  /-- `QDir::cleanPath` -/
  cleanPath : Text → Text
  /-- `QDir::fromNativeSeparators` -/
  fromNativeSeparators : Text → Text
  /-- `QDir::toNativeSeparators` -/
  toNativeSeparators : Text → Text
  /-- `QString::toCaseFolded` -/
  toCaseFolded : Text → Text
  /-- `QString::toUpper` -/
  toUpper : Text → Text
  /-- The folding of one character under `Qt::CaseInsensitive`. -/
  foldCase : Char → Char
  /-- `QChar::isSpace` -/
  isSpace : Char → Bool

namespace Qt

variable (qt : Qt)

/-- `compare(left, right, Qt::CaseInsensitive) == 0` -/
def sameText (left right : Text) : Bool :=
  left.map qt.foldCase == right.map qt.foldCase

/-- `startsWith(front, Qt::CaseInsensitive)` -/
def startsWith (text front : Text) : Bool :=
  (front.map qt.foldCase).isPrefixOf (text.map qt.foldCase)

/-- `QStringList::contains` and the search in a set, under `Qt::CaseInsensitive` -/
def containsText (texts : List Text) (text : Text) : Bool :=
  texts.any (qt.sameText · text)

/-- Sorts under `Qt::CaseInsensitive` and drops the texts that repeat their
neighbour up to case. -/
def sortUnique (texts : List Text) : List Text :=
  SortUnique.sortUniqueBy (fun text => text.map qt.foldCase) texts

def trimmed (text : Text) : Text :=
  (text.dropWhile qt.isSpace).rdropWhile qt.isSpace

theorem sameText_iff {left right : Text} :
    qt.sameText left right = true ↔ left.map qt.foldCase = right.map qt.foldCase :=
  beq_iff_eq

@[simp]
theorem sameText_self (text : Text) : qt.sameText text text = true :=
  qt.sameText_iff.2 rfl

theorem containsText_iff {texts : List Text} {text : Text} :
    qt.containsText texts text = true ↔ ∃ other ∈ texts, qt.sameText other text = true := by
  simp [containsText]

/-- The text begins with the prefix of a long path, `\\?\` or `\??\`, or with that prefix in
slashes; Qt takes it off. -/
def hasLongPathPrefix : Text → Bool
  | first :: second :: third :: fourth :: _ =>
      (first == '\\' || first == '/') && (second == first || second == '?') &&
        third == '?' && fourth == first
  | _ => false

/-- The separators of the text are converted one by one. -/
def Converts (text : Text) : Prop :=
  qt.fromNativeSeparators text = text.map fun c => if c = '\\' then '/' else c

/-- Separators are converted one by one where no prefix is taken off. -/
structure ConvertsSeparators : Prop where
  fromNative : ∀ text, hasLongPathPrefix text = false → qt.Converts text
  toNative : ∀ text, qt.toNativeSeparators text = text.map fun c => if c = '/' then '\\' else c

/-- Only a separator is folded to a separator, and to itself. -/
structure FoldsLetters : Prop where
  backslash : ∀ c, qt.foldCase c = '\\' ↔ c = '\\'
  slash : ∀ c, qt.foldCase c = '/' ↔ c = '/'

theorem hasLongPathPrefix_of_head {text : Text} {c : Char} (hhead : text.head? = some c)
    (hbackslash : c ≠ '\\') (hslash : c ≠ '/') : hasLongPathPrefix text = false := by
  obtain ⟨rest, rfl⟩ := List.head?_eq_some_iff.1 hhead
  unfold hasLongPathPrefix
  split
  · next heq =>
      cases heq
      simp [hbackslash, hslash]
  · rfl

theorem hasLongPathPrefix_of_prefix {front text : Text} (hfront : front <+: text)
    (hplain : hasLongPathPrefix text = false) : hasLongPathPrefix front = false := by
  obtain ⟨back, rfl⟩ := hfront
  match front with
  | [] | [_] | [_, _] | [_, _, _] => rfl
  | first :: second :: third :: fourth :: rest => exact hplain

/-- The functions on texts of ASCII characters, with paths that are clean. -/
def ascii : Qt where
  cleanPath := id
  fromNativeSeparators text := text.map fun c => if c = '\\' then '/' else c
  toNativeSeparators text := text.map fun c => if c = '/' then '\\' else c
  toCaseFolded := toLowerAscii
  toUpper := toUpperAscii
  foldCase := lowerAscii
  isSpace := isAsciiWhitespace

theorem ascii_convertsSeparators : ascii.ConvertsSeparators := ⟨fun _ _ => rfl, fun _ => rfl⟩

theorem ascii_foldsLetters : ascii.FoldsLetters where
  backslash _ := lowerAscii_eq_iff (by decide) (by decide)
  slash _ := lowerAscii_eq_iff (by decide) (by decide)

end Qt

namespace Paths

def isSeparator (c : Char) : Bool := c == '\\' || c == '/'

def toBackslash (c : Char) : Char := if c = '/' then '\\' else c

def stripTrailingSeparators (path : Text) : Text := path.rdropWhile isSeparator

variable (qt : Qt)

def normalize (path : Text) : Text :=
  if path.isEmpty then []
  else qt.toNativeSeparators (qt.cleanPath (qt.fromNativeSeparators path))

/-- The path begins at the root of a volume and names no host. -/
def isRooted (normalized : Text) : Bool :=
  normalized.head? == some '\\' && !(['\\', '\\'].isPrefixOf normalized)

/-- Resolves a path that begins at the root of the volume. -/
def normalizeOn (driveLetter path : Text) : Text :=
  let normalized := normalize qt path
  if !driveLetter.isEmpty && isRooted normalized then normalize qt (driveLetter ++ normalized)
  else normalized

def identity (path : Text) : Text := qt.toCaseFolded (normalize qt path)

/-- A path with the separators of the platform. -/
def native (path : Text) : Text := qt.toNativeSeparators (qt.fromNativeSeparators path)

def contains (parent path : Text) : Bool :=
  let root := (native qt parent).rdropWhile isSeparator
  let target := native qt path
  if root.isEmpty then false
  else if qt.sameText target root then true
  else
    target.length > root.length && qt.startsWith target root &&
      (target.drop root.length).head?.any isSeparator

def overlap (left right : Text) : Bool :=
  contains qt left right || contains qt right left

def isDriveRoot (path : Text) : Bool :=
  let split := Drive.split path
  !split.letter.isEmpty && (stripTrailingSeparators split.rest).isEmpty

/-- The first exclusion that covers the target, or the empty text. -/
def findCoveringExclusion (excls : List Text) (target : Text) : Text :=
  let t := stripTrailingSeparators target
  (excls.find? fun e => contains qt (stripTrailingSeparators e) t).getD []

/-- The parent is the front of the path up to the case, and a separator or nothing
follows. -/
theorem contains_iff {parent path : Text} :
    contains qt parent path = true ↔
      (native qt parent).rdropWhile isSeparator ≠ [] ∧
        ∃ front back, native qt path = front ++ back ∧
          front.map qt.foldCase = ((native qt parent).rdropWhile isSeparator).map qt.foldCase ∧
          ∀ c ∈ back.head?, isSeparator c = true := by
  generalize hroot : (native qt parent).rdropWhile isSeparator = root
  generalize htarget : native qt path = target
  simp only [contains, hroot, htarget]
  constructor
  · intro hcontains
    split_ifs at hcontains with hempty hsame
    · exact ⟨by rwa [List.isEmpty_iff] at hempty, target, [], (List.append_nil _).symm,
        qt.sameText_iff.1 hsame, nofun⟩
    · simp only [Bool.and_eq_true, decide_eq_true_eq, Qt.startsWith, List.isPrefixOf_iff_prefix]
        at hcontains
      obtain ⟨⟨-, hstarts⟩, hseparator⟩ := hcontains
      refine ⟨by rwa [List.isEmpty_iff] at hempty, target.take root.length,
        target.drop root.length, (List.take_append_drop _ _).symm, ?_, ?_⟩
      · have htake := List.prefix_iff_eq_take.1 hstarts
        rw [List.length_map] at htake
        rw [htake, List.map_take]
      · intro c hc
        rw [Option.mem_def.1 hc] at hseparator
        exact hseparator
  · rintro ⟨hempty, front, back, rfl, hfront, hback⟩
    have hlength : front.length = root.length := by
      simpa using congrArg List.length hfront
    rw [if_neg (by rwa [List.isEmpty_iff])]
    cases back with
    | nil => rw [List.append_nil, if_pos (qt.sameText_iff.2 hfront)]
    | cons c rest =>
        have hstarts : qt.startsWith (front ++ c :: rest) root = true := by
          rw [Qt.startsWith, List.isPrefixOf_iff_prefix, List.map_append, hfront]
          exact List.prefix_append _ _
        have hdrop : (front ++ c :: rest).drop root.length = c :: rest := by
          rw [← hlength, List.drop_left]
        split_ifs
        · rfl
        · rw [hstarts, hdrop]
          simp [hlength, hback c rfl]

theorem overlap_comm (left right : Text) : overlap qt left right = overlap qt right left :=
  Bool.or_comm _ _

/-- A covering exclusion is one of the exclusions and contains the target. -/
theorem exists_of_findCoveringExclusion {excls : List Text} {target : Text}
    (hfound : (findCoveringExclusion qt excls target).isEmpty = false) :
    ∃ e ∈ excls,
      contains qt (stripTrailingSeparators e) (stripTrailingSeparators target) = true := by
  rw [findCoveringExclusion] at hfound
  cases hfind : excls.find? fun e =>
      contains qt (stripTrailingSeparators e) (stripTrailingSeparators target) with
  | none => simp [hfind] at hfound
  | some e =>
      have hcovers := List.find?_some hfind
      exact ⟨e, List.mem_of_find?_eq_some hfind, hcovers⟩

theorem isSeparator_toBackslash (c : Char) : isSeparator (toBackslash c) = isSeparator c := by
  rw [toBackslash]
  split_ifs with hslash
  · subst hslash
    rfl
  · rfl

/-- What does not end in a separator stays when separators are cut off behind it. -/
theorem rdropWhile_append {front : Text} (hfront : front.rdropWhile isSeparator = front)
    (back : Text) : (front ++ back).rdropWhile isSeparator = front ++ back.rdropWhile isSeparator := by
  rw [List.rdropWhile, List.reverse_append, List.dropWhile_append]
  rw [List.rdropWhile] at hfront
  split_ifs with hempty
  · rw [hfront, List.rdropWhile, List.isEmpty_iff.1 hempty, List.reverse_nil, List.append_nil]
  · rw [List.reverse_append, List.reverse_reverse, List.rdropWhile]

variable {qt} in
theorem isSeparator_foldCase (hfold : qt.FoldsLetters) (c : Char) :
    isSeparator (qt.foldCase c) = isSeparator c := by
  rw [Bool.eq_iff_iff]
  simp only [isSeparator, Bool.or_eq_true, beq_iff_eq]
  exact or_congr (hfold.backslash c) (hfold.slash c)

theorem rdropWhile_map_toBackslash (text : Text) :
    (text.map toBackslash).rdropWhile isSeparator =
      (text.rdropWhile isSeparator).map toBackslash := by
  have hcomp : isSeparator ∘ toBackslash = isSeparator := funext isSeparator_toBackslash
  simp only [List.rdropWhile, ← List.map_reverse, List.dropWhile_map, hcomp]

section ConvertsSeparators

variable {qt} (hqt : qt.ConvertsSeparators)
include hqt

theorem native_eq_map {text : Text} (htext : qt.Converts text) :
    native qt text = text.map toBackslash := by
  rw [native, htext, hqt.toNative, List.map_map]
  refine List.map_congr_left fun c _ => ?_
  simp only [Function.comp_apply, toBackslash]
  split_ifs with hback <;> simp_all

theorem native_nil : native qt [] = [] := native_eq_map hqt (hqt.fromNative [] rfl)

theorem converts_strip {text : Text} (hplain : Qt.hasLongPathPrefix text = false) :
    qt.Converts (stripTrailingSeparators text) :=
  hqt.fromNative _ (Qt.hasLongPathPrefix_of_prefix (List.rdropWhile_prefix isSeparator text) hplain)

theorem native_strip {text : Text} (htext : qt.Converts text)
    (hstrip : qt.Converts (stripTrailingSeparators text)) :
    native qt (stripTrailingSeparators text) = (native qt text).rdropWhile isSeparator := by
  rw [native_eq_map hqt htext, native_eq_map hqt hstrip, stripTrailingSeparators,
    rdropWhile_map_toBackslash]

/-- Trailing separators of the parent do not matter. -/
theorem contains_strip {parent : Text} (hplain : Qt.hasLongPathPrefix parent = false)
    (path : Text) :
    contains qt (stripTrailingSeparators parent) path = contains qt parent path := by
  have hroot : (native qt (stripTrailingSeparators parent)).rdropWhile isSeparator =
      (native qt parent).rdropWhile isSeparator := by
    rw [native_strip hqt (hqt.fromNative parent hplain) (converts_strip hqt hplain),
      List.rdropWhile_idempotent]
  simp only [contains, hroot]

theorem findCoveringExclusion_of_contains {excls : List Text} {target e : Text} (hmem : e ∈ excls)
    (hcovers : contains qt (stripTrailingSeparators e) (stripTrailingSeparators target) = true) :
    (findCoveringExclusion qt excls target).isEmpty = false := by
  rw [findCoveringExclusion]
  cases hfind : excls.find? fun e =>
      contains qt (stripTrailingSeparators e) (stripTrailingSeparators target) with
  | none => exact absurd hcovers (List.find?_eq_none.1 hfind e hmem)
  | some found =>
      have hfound := List.find?_some hfind
      cases found with
      | nil =>
          simp [stripTrailingSeparators, contains, native_nil hqt] at hfound
      | cons c rest => rfl

end ConvertsSeparators

/-- What is relied on about the normal form of the paths of a class, which Qt bears out for those
from which no prefix of a long path is ever taken off: the form is a fixed point, it keeps the
drive and the case of the path, and no character folds to a backslash. -/
structure Normalizes (plain : Text → Prop) : Prop where
  trimmed : ∀ path, plain path → plain (qt.trimmed path)
  normal : ∀ path, plain path → plain (normalize qt path)
  onDrive : ∀ letter rest, Drive.IsDriveLetter letter → rest.head? = some '\\' → plain rest →
    plain (letter ++ rest)
  sameCase : ∀ first second : Text, first.map qt.foldCase = second.map qt.foldCase →
    plain first → plain second
  idempotent : ∀ path, plain path → normalize qt (normalize qt path) = normalize qt path
  keepsDrive : ∀ letter rest, Drive.IsDriveLetter letter → rest.head? = some '\\' →
    letter <+: normalize qt (letter ++ rest)
  respectsCase : ∀ first second : Text, plain first →
    first.map qt.foldCase = second.map qt.foldCase →
      (normalize qt first).map qt.foldCase = (normalize qt second).map qt.foldCase
  foldBackslash : ∀ c, qt.foldCase c = '\\' ↔ c = '\\'

section Normalizes

variable {qt} {plain : Text → Prop} (hqt : Normalizes qt plain)
include hqt

/-- Folding does not change whether a path is rooted. -/
theorem isRooted_map (normalized : Text) :
    isRooted (normalized.map qt.foldCase) = isRooted normalized := by
  match normalized with
  | [] => rfl
  | [first] =>
      simp only [isRooted, List.map_cons, List.map_nil, List.head?_cons]
      rw [Bool.eq_iff_iff]
      simp [List.isPrefixOf, hqt.foldBackslash]
  | first :: second :: rest =>
      simp only [isRooted, List.map_cons, List.head?_cons, List.isPrefixOf]
      rw [Bool.eq_iff_iff]
      simp [hqt.foldBackslash, @eq_comm _ '\\']

theorem isRooted_congr {first second : Text}
    (hcase : first.map qt.foldCase = second.map qt.foldCase) :
    isRooted first = isRooted second := by
  rw [← isRooted_map hqt first, hcase, isRooted_map hqt second]

omit hqt in
theorem head?_of_isRooted {path : Text} (hrooted : isRooted path = true) :
    path.head? = some '\\' := by
  rw [isRooted, Bool.and_eq_true, beq_iff_eq] at hrooted
  exact hrooted.1

theorem plain_normalizeOn (binding : Drive.Binding) {path : Text} (hpath : plain path) :
    plain (normalizeOn qt binding.letter path) := by
  have hnormal := hqt.normal path hpath
  rw [normalizeOn]
  split_ifs with hresolves
  · rw [Bool.and_eq_true, Bool.not_eq_true', List.isEmpty_eq_false_iff] at hresolves
    exact hqt.normal _ (hqt.onDrive _ _ (binding.valid.resolve_left hresolves.1)
      (head?_of_isRooted hresolves.2) hnormal)
  · exact hnormal

/-- A path that was resolved stays as it is. -/
theorem normalizeOn_idempotent (binding : Drive.Binding) {path : Text} (hpath : plain path) :
    normalizeOn qt binding.letter (normalizeOn qt binding.letter path) =
      normalizeOn qt binding.letter path := by
  by_cases hresolves : (!binding.letter.isEmpty && isRooted (normalize qt path)) = true
  · have hresolved : normalizeOn qt binding.letter path =
        normalize qt (binding.letter ++ normalize qt path) := by
      simp only [normalizeOn, hresolves, if_true]
    rw [Bool.and_eq_true, Bool.not_eq_true', List.isEmpty_eq_false_iff] at hresolves
    have hletter := binding.valid.resolve_left hresolves.1
    have hhead := head?_of_isRooted hresolves.2
    have hplain := hqt.onDrive binding.letter _ hletter hhead (hqt.normal path hpath)
    have hdrive := hqt.keepsDrive binding.letter _ hletter hhead
    have hnotRooted : isRooted (normalize qt (binding.letter ++ normalize qt path)) = false := by
      obtain ⟨rest, hrest⟩ := hdrive
      obtain ⟨letter, hlow, hhigh, heq⟩ := hletter
      rw [← hrest, heq]
      have hne : letter ≠ '\\' := by
        rintro rfl
        exact absurd hhigh (by decide)
      simp [isRooted, hne]
    rw [hresolved, normalizeOn, hqt.idempotent _ hplain, hnotRooted]
    simp
  · have hnormal : normalizeOn qt binding.letter path = normalize qt path := by
      simp only [normalizeOn, hresolves]
      rfl
    rw [hnormal, normalizeOn, hqt.idempotent path hpath]
    simp only [hresolves]
    rfl

theorem normalizeOn_congr (binding : Drive.Binding) {first second : Text} (hfirst : plain first)
    (hcase : first.map qt.foldCase = second.map qt.foldCase) :
    (normalizeOn qt binding.letter first).map qt.foldCase =
      (normalizeOn qt binding.letter second).map qt.foldCase := by
  have hnormal := hqt.respectsCase first second hfirst hcase
  simp only [normalizeOn, isRooted_congr hqt hnormal]
  split_ifs with hresolves
  · rw [Bool.and_eq_true, Bool.not_eq_true', List.isEmpty_eq_false_iff,
      ← isRooted_congr hqt hnormal] at hresolves
    have hplain := hqt.onDrive binding.letter _ (binding.valid.resolve_left hresolves.1)
      (head?_of_isRooted hresolves.2) (hqt.normal first hfirst)
    exact hqt.respectsCase _ _ hplain (by rw [List.map_append, List.map_append, hnormal])
  · exact hnormal

end Normalizes

theorem normalize_ascii (path : Text) : normalize Qt.ascii path = path.map toBackslash := by
  cases path with
  | nil => rfl
  | cons first rest =>
      simp only [normalize, Qt.ascii, List.isEmpty_cons, id, List.map_map]
      refine List.map_congr_left fun c _ => ?_
      simp only [Function.comp_apply, toBackslash]
      split_ifs <;> simp_all

theorem lowerAscii_toBackslash_congr {c d : Char} (hcase : lowerAscii c = lowerAscii d) :
    lowerAscii (toBackslash c) = lowerAscii (toBackslash d) := by
  have hslash : c = '/' ↔ d = '/' := by
    rw [← lowerAscii_eq_iff (by decide) (by decide), hcase,
      lowerAscii_eq_iff (by decide) (by decide)]
  rw [toBackslash, toBackslash]
  by_cases hc : c = '/'
  · rw [if_pos hc, if_pos (hslash.1 hc)]
  · rw [if_neg hc, if_neg fun hd => hc (hslash.2 hd), hcase]

theorem ascii_normalizes : Normalizes Qt.ascii fun _ => True where
  trimmed _ _ := trivial
  normal _ _ := trivial
  onDrive _ _ _ _ _ := trivial
  sameCase _ _ _ _ := trivial
  idempotent path _ := by
    rw [normalize_ascii, normalize_ascii, List.map_map]
    refine List.map_congr_left fun c _ => ?_
    simp only [Function.comp_apply, toBackslash]
    split_ifs <;> simp_all
  keepsDrive letter rest hletter _ := by
    obtain ⟨c, hlow, hhigh, rfl⟩ := hletter
    rw [normalize_ascii]
    have hc : toBackslash c = c := by
      rw [toBackslash, if_neg]
      rintro rfl
      exact absurd hlow (by decide)
    exact ⟨rest.map toBackslash, by rw [List.map_append, List.map_cons, hc]; rfl⟩
  respectsCase first second _ hcase := by
    rw [normalize_ascii, normalize_ascii]
    induction first generalizing second with
    | nil => cases second with
      | nil => rfl
      | cons d rest => simp at hcase
    | cons c first ih => cases second with
      | nil => simp at hcase
      | cons d second =>
          simp only [List.map_cons, List.cons.injEq] at hcase ⊢
          exact ⟨lowerAscii_toBackslash_congr hcase.1, ih second hcase.2⟩
  foldBackslash c := lowerAscii_eq_iff (by decide) (by decide)

end Paths

end UwfManager
