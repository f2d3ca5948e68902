import Mathlib.Data.List.DropRight
import Mathlib.Tactic.Common

/-!
# Text, drive letters and registry keys

Both `std::string` and `QString` are modelled as lists of characters.  The code
below inspects ASCII characters only, so a byte string can be read through the
code points `0..255` and a Unicode string through its scalar values; the
conversions between the two string types are the identity here.
-/

namespace UwfManager

abbrev Text := List Char

/-! ## `StringUtil` -/

def isAsciiWhitespace (value : Char) : Bool :=
  value == ' ' || value == '\t' || value == '\n' || value == '\r' ||
    value == '\x0c' || value == '\x0b'

def lowerAscii (c : Char) : Char :=
  if 'A' ≤ c ∧ c ≤ 'Z' then Char.ofNat (c.toNat - 'A'.toNat + 'a'.toNat) else c

def upperAscii (c : Char) : Char :=
  if 'a' ≤ c ∧ c ≤ 'z' then Char.ofNat (c.toNat - 'a'.toNat + 'A'.toNat) else c

theorem toNat_ofNat_of_lt {n : ℕ} (hn : n < 0xd800) : (Char.ofNat n).toNat = n := by
  rw [Char.ofNat, dif_pos (Or.inl hn)]
  rfl

/-- Lowering a letter gives a lower-case letter. -/
theorem lowerAscii_range {c : Char} (hupper : 'A' ≤ c ∧ c ≤ 'Z') :
    'a' ≤ lowerAscii c ∧ lowerAscii c ≤ 'z' := by
  have hlow : 65 ≤ c.toNat := hupper.1
  have hhigh : c.toNat ≤ 90 := hupper.2
  rw [lowerAscii, if_pos hupper]
  change 97 ≤ (Char.ofNat (c.toNat - 65 + 97)).toNat ∧
    (Char.ofNat (c.toNat - 65 + 97)).toNat ≤ 122
  rw [toNat_ofNat_of_lt (by omega)]
  omega

theorem upperAscii_range {c : Char} (hlower : 'a' ≤ c ∧ c ≤ 'z') :
    'A' ≤ upperAscii c ∧ upperAscii c ≤ 'Z' := by
  have hlow : 97 ≤ c.toNat := hlower.1
  have hhigh : c.toNat ≤ 122 := hlower.2
  rw [upperAscii, if_pos hlower]
  change 65 ≤ (Char.ofNat (c.toNat - 97 + 65)).toNat ∧
    (Char.ofNat (c.toNat - 97 + 65)).toNat ≤ 90
  rw [toNat_ofNat_of_lt (by omega)]
  omega

/-- A character that is no letter is the lowering of itself only. -/
theorem lowerAscii_eq_iff {c d : Char} (hlower : ¬('a' ≤ d ∧ d ≤ 'z'))
    (hupper : ¬('A' ≤ d ∧ d ≤ 'Z')) : lowerAscii c = d ↔ c = d := by
  constructor
  · intro heq
    by_cases hc : 'A' ≤ c ∧ c ≤ 'Z'
    · exact absurd (heq ▸ lowerAscii_range hc) hlower
    · rwa [lowerAscii, if_neg hc] at heq
  · rintro rfl
    rw [lowerAscii, if_neg hupper]

def toLowerAscii (s : Text) : Text := s.map lowerAscii

def toUpperAscii (s : Text) : Text := s.map upperAscii

/-- Removes the leading and the trailing ASCII whitespace. -/
def trim (s : Text) : Text :=
  (s.dropWhile isAsciiWhitespace).rdropWhile isAsciiWhitespace

@[simp]
theorem trim_nil : trim [] = [] := rfl

/-- A text whose first and last characters are visible is left as it is. -/
theorem trim_eq_self {s : Text}
    (hfirst : ∀ c ∈ s.head?, isAsciiWhitespace c = false)
    (hlast : ∀ c ∈ s.getLast?, isAsciiWhitespace c = false) : trim s = s := by
  cases s with
  | nil => rfl
  | cons first rest =>
      have hdrop : (first :: rest).dropWhile isAsciiWhitespace = first :: rest := by
        rw [List.dropWhile_cons_of_neg]
        simp [hfirst first (by simp)]
      rw [trim, hdrop, List.rdropWhile_eq_self_iff]
      intro hne
      have hvisible := hlast ((first :: rest).getLast hne)
        (by rw [List.getLast?_eq_some_getLast hne]; rfl)
      simp [hvisible]

theorem trim_cons_whitespace {c : Char} (s : Text)
    (hspace : isAsciiWhitespace c = true) : trim (c :: s) = trim s := by
  rw [trim, trim, List.dropWhile_cons_of_pos hspace]

theorem trim_concat_whitespace {c : Char} (s : Text)
    (hspace : isAsciiWhitespace c = true) : trim (s ++ [c]) = trim s := by
  by_cases hall : s.dropWhile isAsciiWhitespace = []
  · have hboth : (s ++ [c]).dropWhile isAsciiWhitespace = [] := by
      rw [List.dropWhile_eq_nil_iff] at hall ⊢
      intro d hd
      rcases List.mem_append.1 hd with hd | hd
      · exact hall d hd
      · simpa [List.mem_singleton.1 hd] using hspace
    rw [trim, trim, hall, hboth]
  · rw [trim, trim, List.dropWhile_append, if_neg (by simpa using hall),
      List.rdropWhile_concat_pos _ _ _ hspace]

/-- Trimming at the end never reaches past a visible character. -/
theorem trim_append_of_visible {s : Text} (tail : Text)
    (hfirst : ∀ c ∈ s.head?, isAsciiWhitespace c = false)
    (hlast : ∀ c ∈ s.getLast?, isAsciiWhitespace c = false) (hne : s ≠ []) :
    ∃ kept, trim (s ++ tail) = s ++ kept := by
  induction tail using List.reverseRecOn with
  | nil => exact ⟨[], by simpa using trim_eq_self hfirst hlast⟩
  | append_singleton tail c ih =>
      by_cases hspace : isAsciiWhitespace c = true
      · rw [← List.append_assoc, trim_concat_whitespace _ hspace]
        exact ih
      · refine ⟨tail ++ [c], trim_eq_self ?_ ?_⟩
        · intro d hd
          exact hfirst d (by simpa [List.head?_append_of_ne_nil _ hne] using hd)
        · intro d hd
          have : c = d := by simpa [← List.append_assoc] using hd
          simpa [← this] using hspace

/-! ## `DriveLetter` -/

namespace Drive

def isAsciiLetter (value : Char) : Bool :=
  ('A' ≤ value && value ≤ 'Z') || ('a' ≤ value && value ≤ 'z')

def normalizedLetter (letter : Char) : Text := [upperAscii letter, ':']

/-- Only the extended-length prefixes `\\?\` and `\\.\` are removed. -/
def stripExtendedPrefix : Text → Text
  | '\\' :: '\\' :: mark :: '\\' :: rest =>
      if mark = '?' ∨ mark = '.' then rest else '\\' :: '\\' :: mark :: '\\' :: rest
  | s => s

/-- The drive letter as `"C:"`, or the empty text when the input names none. -/
def normalize (raw : Text) : Text :=
  match stripExtendedPrefix (trim raw) with
  | [] => []
  | [letter] => if isAsciiLetter letter then normalizedLetter letter else []
  | letter :: second :: _ =>
      if isAsciiLetter letter && second == ':' then normalizedLetter letter else []

structure PathSplit where
  letter : Text
  rest : Text
  deriving DecidableEq

/-- Splits a path at its literal drive prefix; the path is not trimmed. -/
def split (path : Text) : PathSplit :=
  match stripExtendedPrefix path with
  | letter :: ':' :: rest =>
      if isAsciiLetter letter then ⟨normalizedLetter letter, rest⟩
      else ⟨[], letter :: ':' :: rest⟩
  | body => ⟨[], body⟩

/-- The canonical spellings `A:` to `Z:`. -/
def IsDriveLetter (s : Text) : Prop :=
  ∃ letter : Char, 'A' ≤ letter ∧ letter ≤ 'Z' ∧ s = [letter, ':']

theorem normalize_of_isDriveLetter {s : Text} (hs : IsDriveLetter s) :
    normalize s = s := by
  obtain ⟨letter, hlow, hhigh, rfl⟩ := hs
  have hvisible : isAsciiWhitespace letter = false := by
    simp only [isAsciiWhitespace, Bool.or_eq_false_iff, beq_eq_false_iff_ne]
    refine ⟨⟨⟨⟨⟨?_, ?_⟩, ?_⟩, ?_⟩, ?_⟩, ?_⟩ <;> rintro rfl <;>
      exact absurd hlow (by decide)
  have htrim : trim [letter, ':'] = [letter, ':'] :=
    trim_eq_self (by simpa using hvisible) (by simp [isAsciiWhitespace])
  have hupper : upperAscii letter = letter := by
    have : ¬('a' ≤ letter ∧ letter ≤ 'z') := by
      rintro ⟨hlower, -⟩
      exact absurd (Char.le_trans hlower hhigh) (by decide)
    simp [upperAscii, this]
  have hstrip : stripExtendedPrefix [letter, ':'] = [letter, ':'] := by
    simp [stripExtendedPrefix]
  simp [normalize, htrim, hstrip, isAsciiLetter, hlow, hhigh, normalizedLetter, hupper]

theorem normalizedLetter_isDriveLetter {letter : Char} (hletter : isAsciiLetter letter = true) :
    IsDriveLetter (normalizedLetter letter) := by
  simp only [isAsciiLetter, Bool.or_eq_true, Bool.and_eq_true, decide_eq_true_eq] at hletter
  rcases hletter with ⟨hlow, hhigh⟩ | ⟨hlow, hhigh⟩
  · refine ⟨letter, hlow, hhigh, ?_⟩
    have hupper : ¬('a' ≤ letter ∧ letter ≤ 'z') := fun hlower =>
      absurd (Char.le_trans hlower.1 hhigh) (by decide)
    rw [normalizedLetter, upperAscii, if_neg hupper]
  · have hrange := upperAscii_range ⟨hlow, hhigh⟩
    exact ⟨upperAscii letter, hrange.1, hrange.2, rfl⟩

/-- A normalized text names a drive or is empty. -/
theorem normalize_eq_nil_or (raw : Text) : normalize raw = [] ∨ IsDriveLetter (normalize raw) := by
  rw [normalize]
  split
  · exact Or.inl rfl
  · split_ifs with hletter
    · exact Or.inr (normalizedLetter_isDriveLetter hletter)
    · exact Or.inl rfl
  · split_ifs with hletter
    · rw [Bool.and_eq_true] at hletter
      exact Or.inr (normalizedLetter_isDriveLetter hletter.1)
    · exact Or.inl rfl

/-- The drive letter something is bound to, if any. -/
structure Binding where
  letter : Text
  valid : letter = [] ∨ IsDriveLetter letter

def Binding.unbound : Binding := ⟨[], Or.inl rfl⟩

def bind (raw : Text) : Binding := ⟨normalize raw, normalize_eq_nil_or raw⟩

end Drive

/-! ## `RegistryPath` -/

namespace RegKey

structure RegistryHiveName where
  shortForm : Text
  longForm : Text

def registryHiveNames : List RegistryHiveName :=
  [⟨"HKLM".toList, "HKEY_LOCAL_MACHINE".toList⟩,
    ⟨"HKCU".toList, "HKEY_CURRENT_USER".toList⟩,
    ⟨"HKCR".toList, "HKEY_CLASSES_ROOT".toList⟩,
    ⟨"HKU".toList, "HKEY_USERS".toList⟩,
    ⟨"HKCC".toList, "HKEY_CURRENT_CONFIG".toList⟩]

/-- Trims the key, drops its trailing backslashes and spells a known root key
out in full.  Each of the three passes is made once. -/
def normalize (key : Text) : Text :=
  let path := (trim key).rdropWhile (· == '\\')
  let hive := path.takeWhile (· != '\\')
  let rest := path.dropWhile (· != '\\')
  let hiveUpper := toUpperAscii hive
  match registryHiveNames.find?
      (fun h => hiveUpper == h.shortForm || hiveUpper == h.longForm) with
  | some h => h.longForm ++ rest
  | none => path

example : normalize " hklm\\Software\\ ".toList = "HKEY_LOCAL_MACHINE\\Software".toList := by
  decide

/-- The key begins with a root key that is spelled out. -/
def LongForm (key : Text) : Prop :=
  ∃ hive ∈ registryHiveNames, ∃ rest, key = hive.longForm ++ rest ∧
    (rest = [] ∨ rest.head? = some '\\')

theorem head?_of_longForm {key : Text} (hlong : LongForm key) : key.head? = some 'H' := by
  obtain ⟨hive, hhive, rest, rfl, -⟩ := hlong
  simp only [registryHiveNames, List.mem_cons, List.not_mem_nil, or_false] at hhive
  rcases hhive with rfl | rfl | rfl | rfl | rfl <;> rfl

end RegKey

/-! ## Messages -/

/-- A text for the user: data, a translated text with its arguments, or the
concatenation of two texts. -/
inductive Message where
  | literal (text : Text)
  | tr (source : Text) (args : List Message)
  | append (first second : Message)

namespace Message

def plain (source : String) : Message := .tr source.toList []

def withArgs (source : String) (args : List Message) : Message := .tr source.toList args

def number (value : ℕ) : Message := .literal (Nat.toDigits 10 value)

/-- `first + ": " + second` -/
def explained (first second : Message) : Message :=
  .append (.append first (.literal ": ".toList)) second

end Message

end UwfManager
