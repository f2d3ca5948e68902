import Mathlib.Data.List.Basic
import Mathlib.Tactic.Common

/-!
# UTF-16 texts as lists of code units

A character above the basic plane is written as a pair of surrogates, and a
surrogate outside a pair is no character.  Readers differ in what they do with
one: the reader here marks it, so that a caller can refuse it or replace it.
-/

namespace Utf16

def isHigh (unit : UInt16) : Bool := 0xd800 ≤ unit.toNat && unit.toNat < 0xdc00

def isLow (unit : UInt16) : Bool := 0xdc00 ≤ unit.toNat && unit.toNat < 0xe000

def encodeChar (c : Char) : List UInt16 :=
  if c.toNat < 0x10000 then [UInt16.ofNat c.toNat]
  else [UInt16.ofNat (0xd800 + (c.toNat - 0x10000) / 0x400),
    UInt16.ofNat (0xdc00 + (c.toNat - 0x10000) % 0x400)]

def encode (text : List Char) : List UInt16 := text.flatMap encodeChar

/-- The character that a high and a low surrogate form. -/
def pair (high low : UInt16) : Char :=
  Char.ofNat (0x10000 + (high.toNat - 0xd800) * 0x400 + (low.toNat - 0xdc00))

/-- The character of a unit that is in no pair. -/
def single (unit : UInt16) : Option Char :=
  if isHigh unit || isLow unit then none else some (Char.ofNat unit.toNat)

/-- The characters of a text, with `none` for a surrogate that is in no pair. -/
def scan : List UInt16 → List (Option Char)
  | [] => []
  | [unit] => [single unit]
  | unit :: next :: rest =>
      if isHigh unit && isLow next then some (pair unit next) :: scan rest
      else single unit :: scan (next :: rest)

/-- All surrogates are paired. -/
def WellFormed (units : List UInt16) : Prop := none ∉ scan units

instance (units : List UInt16) : Decidable (WellFormed units) :=
  inferInstanceAs (Decidable (none ∉ scan units))

def replacement : Char := '\uFFFD'

/-- Replaces each surrogate that is in no pair. -/
def decode (units : List UInt16) : List Char :=
  (scan units).map fun c => c.getD replacement

/-- Refuses a text with a surrogate that is in no pair. -/
def decodeStrict (units : List UInt16) : Option (List Char) :=
  if WellFormed units then some (decode units) else none

@[simp]
theorem encode_cons (c : Char) (text : List Char) :
    encode (c :: text) = encodeChar c ++ encode text := rfl

/-! ## Characters -/

theorem toNat_ofNat {n : ℕ} (hn : n < 0x10000) : (UInt16.ofNat n).toNat = n := by
  rw [UInt16.toNat_ofNat']
  exact Nat.mod_eq_of_lt hn

theorem char_ofNat_toNat {n : ℕ} (hn : n.isValidChar) : (Char.ofNat n).toNat = n := by
  rw [Char.ofNat, dif_pos hn]
  rfl

theorem char_eq_of_toNat {c d : Char} (heq : c.toNat = d.toNat) : c = d :=
  Char.ext (UInt32.toNat_inj.1 heq)

/-- A character is no surrogate. -/
theorem toNat_valid (c : Char) : c.toNat < 0xd800 ∨ 0xdfff < c.toNat ∧ c.toNat < 0x110000 :=
  c.valid

/-- What a character of the basic plane is written as is read back alone. -/
theorem single_ofNat {c : Char} (hbasic : c.toNat < 0x10000) :
    single (UInt16.ofNat c.toNat) = some c := by
  have hunit := toNat_ofNat hbasic
  have hhigh : isHigh (UInt16.ofNat c.toNat) = false := by
    rw [isHigh, hunit]
    have hvalid := toNat_valid c
    simp only [Bool.and_eq_false_iff, decide_eq_false_iff_not]
    omega
  have hlow : isLow (UInt16.ofNat c.toNat) = false := by
    rw [isLow, hunit]
    have hvalid := toNat_valid c
    simp only [Bool.and_eq_false_iff, decide_eq_false_iff_not]
    omega
  rw [single, hhigh, hlow, hunit, Char.ofNat_toNat]
  rfl

theorem not_isHigh_of_basic {c : Char} (hbasic : c.toNat < 0x10000) :
    isHigh (UInt16.ofNat c.toNat) = false := by
  rw [isHigh, toNat_ofNat hbasic]
  have hvalid := toNat_valid c
  simp only [Bool.and_eq_false_iff, decide_eq_false_iff_not]
  omega

/-- A character above the basic plane is written as a pair, and read from it. -/
theorem encodeChar_of_not_basic {c : Char} (habove : ¬c.toNat < 0x10000) :
    ∃ high low, encodeChar c = [high, low] ∧ isHigh high = true ∧ isLow low = true ∧
      pair high low = c := by
  have hvalid := toNat_valid c
  have hhigh : (UInt16.ofNat (0xd800 + (c.toNat - 0x10000) / 0x400)).toNat =
      0xd800 + (c.toNat - 0x10000) / 0x400 := toNat_ofNat (by omega)
  have hlow : (UInt16.ofNat (0xdc00 + (c.toNat - 0x10000) % 0x400)).toNat =
      0xdc00 + (c.toNat - 0x10000) % 0x400 := toNat_ofNat (by omega)
  refine ⟨_, _, by rw [encodeChar, if_neg habove], ?_, ?_, ?_⟩
  · rw [isHigh, hhigh]
    simp only [Bool.and_eq_true, decide_eq_true_eq]
    omega
  · rw [isLow, hlow]
    simp only [Bool.and_eq_true, decide_eq_true_eq]
    omega
  · have hvalue : 0x10000 + (0xd800 + (c.toNat - 0x10000) / 0x400 - 0xd800) * 0x400 +
        (0xdc00 + (c.toNat - 0x10000) % 0x400 - 0xdc00) = c.toNat := by omega
    rw [pair, hhigh, hlow, hvalue, Char.ofNat_toNat]

/-- A pair is written as it was. -/
theorem encodeChar_pair {high low : UInt16} (hhigh : isHigh high = true)
    (hlow : isLow low = true) : encodeChar (pair high low) = [high, low] := by
  simp only [isHigh, Bool.and_eq_true, decide_eq_true_eq] at hhigh
  simp only [isLow, Bool.and_eq_true, decide_eq_true_eq] at hlow
  have hvalue : (pair high low).toNat =
      0x10000 + (high.toNat - 0xd800) * 0x400 + (low.toNat - 0xdc00) :=
    char_ofNat_toNat (Or.inr (by omega))
  have hfirst : UInt16.ofNat (0xd800 + ((pair high low).toNat - 0x10000) / 0x400) = high := by
    apply UInt16.toNat_inj.1
    rw [toNat_ofNat (by omega)]
    omega
  have hsecond : UInt16.ofNat (0xdc00 + ((pair high low).toNat - 0x10000) % 0x400) = low := by
    apply UInt16.toNat_inj.1
    rw [toNat_ofNat (by omega)]
    omega
  rw [encodeChar, if_neg (by omega), hfirst, hsecond]

theorem encodeChar_of_single {unit : UInt16} {c : Char} (hsingle : single unit = some c) :
    encodeChar c = [unit] := by
  rw [single] at hsingle
  split_ifs at hsingle with hsurrogate
  have hunit : unit.toNat < 0x10000 := unit.toNat_lt
  simp only [isHigh, isLow, Bool.or_eq_true, Bool.and_eq_true, decide_eq_true_eq] at hsurrogate
  have hvalue : c.toNat = unit.toNat := by
    rw [← Option.some.inj hsingle]
    apply char_ofNat_toNat
    by_cases hbelow : unit.toNat < 0xd800
    · exact Or.inl hbelow
    · exact Or.inr (by omega)
  rw [encodeChar, hvalue, if_pos hunit]
  exact congrArg (fun read => [read]) (UInt16.toNat_inj.1 (toNat_ofNat hunit))

/-! ## Reading back -/

theorem scan_of_single {unit : UInt16} (hunit : isHigh unit = false) (rest : List UInt16) :
    scan (unit :: rest) = single unit :: scan rest := by
  cases rest with
  | nil => rfl
  | cons next rest => rw [scan, hunit, Bool.false_and, if_neg Bool.false_ne_true]

@[simp]
theorem scan_encode (text : List Char) : scan (encode text) = text.map some := by
  induction text with
  | nil => rfl
  | cons c text ih =>
      rw [encode_cons, List.map_cons, ← ih]
      by_cases hbasic : c.toNat < 0x10000
      · have hunits : encodeChar c = [UInt16.ofNat c.toNat] := by rw [encodeChar, if_pos hbasic]
        rw [hunits, List.singleton_append, scan_of_single (not_isHigh_of_basic hbasic),
          single_ofNat hbasic]
      · obtain ⟨high, low, hunits, hhigh, hlow, hpair⟩ := encodeChar_of_not_basic hbasic
        rw [hunits, List.cons_append, List.singleton_append, scan, hhigh, hlow, Bool.and_self,
          if_pos rfl, hpair]

/-- The characters that a reader finds without a mark write the text. -/
theorem encode_of_scan {units : List UInt16} {text : List Char}
    (hscan : scan units = text.map some) : encode text = units := by
  induction units using scan.induct generalizing text with
  | case1 =>
      rw [List.map_eq_nil_iff.1 hscan.symm]
      rfl
  | case2 unit =>
      cases text with
      | nil => simp [scan] at hscan
      | cons c text =>
          rw [scan, List.map_cons] at hscan
          obtain ⟨hfirst, hrest⟩ := List.cons.inj hscan
          rw [encode_cons, encodeChar_of_single hfirst, List.map_eq_nil_iff.1 hrest.symm]
          rfl
  | case3 unit next rest hpaired ih =>
      cases text with
      | nil => simp [scan, hpaired] at hscan
      | cons c text =>
          rw [scan, if_pos hpaired, List.map_cons] at hscan
          obtain ⟨hfirst, hrest⟩ := List.cons.inj hscan
          rw [Bool.and_eq_true] at hpaired
          rw [encode_cons, ← Option.some.inj hfirst, encodeChar_pair hpaired.1 hpaired.2, ih hrest]
          rfl
  | case4 unit next rest hunpaired ih =>
      cases text with
      | nil => simp [scan, hunpaired] at hscan
      | cons c text =>
          rw [scan, if_neg hunpaired, List.map_cons] at hscan
          obtain ⟨hfirst, hrest⟩ := List.cons.inj hscan
          rw [encode_cons, encodeChar_of_single hfirst, ih hrest]
          rfl

theorem wellFormed_encode (text : List Char) : WellFormed (encode text) := by
  rw [WellFormed, scan_encode]
  simp

@[simp]
theorem decode_encode (text : List Char) : decode (encode text) = text := by
  rw [decode, scan_encode, List.map_map]
  exact List.map_id text

theorem encode_decode {units : List UInt16} (hwell : WellFormed units) :
    encode (decode units) = units := by
  apply encode_of_scan
  rw [decode, List.map_map]
  symm
  calc (scan units).map (some ∘ fun c => c.getD replacement)
      = (scan units).map id := by
        apply List.map_congr_left
        intro c hc
        cases c with
        | none => exact absurd hc hwell
        | some c => rfl
    _ = scan units := List.map_id _

/-- The texts with all surrogates paired are the ones that characters write. -/
theorem wellFormed_iff {units : List UInt16} : WellFormed units ↔ ∃ text, encode text = units :=
  ⟨fun hwell => ⟨decode units, encode_decode hwell⟩, fun ⟨text, htext⟩ =>
    htext ▸ wellFormed_encode text⟩

theorem decodeStrict_eq_some {units : List UInt16} {text : List Char} :
    decodeStrict units = some text ↔ encode text = units := by
  constructor
  · intro hread
    rw [decodeStrict] at hread
    split_ifs at hread with hwell
    rw [← Option.some.inj hread]
    exact encode_decode hwell
  · rintro rfl
    rw [decodeStrict, if_pos (wellFormed_encode text), decode_encode]

@[simp]
theorem decodeStrict_encode (text : List Char) : decodeStrict (encode text) = some text :=
  decodeStrict_eq_some.2 rfl

/-- Only the null character is written with a null. -/
theorem zero_mem_encode {text : List Char} : 0 ∈ encode text ↔ '\x00' ∈ text := by
  have hchar : ∀ c : Char, 0 ∈ encodeChar c ↔ c = '\x00' := by
    intro c
    by_cases hbasic : c.toNat < 0x10000
    · rw [encodeChar, if_pos hbasic, List.mem_singleton]
      constructor
      · intro hzero
        apply char_eq_of_toNat
        have hunit := toNat_ofNat hbasic
        rw [← hzero] at hunit
        exact hunit.symm
      · rintro rfl
        rfl
    · obtain ⟨high, low, hunits, hhigh, hlow, -⟩ := encodeChar_of_not_basic hbasic
      have hc : c ≠ '\x00' := by
        rintro rfl
        exact hbasic (by decide)
      rw [hunits]
      constructor
      · intro hzero
        rcases List.mem_cons.1 hzero with rfl | hzero
        · exact absurd hhigh (by decide)
        · rw [List.mem_singleton] at hzero
          exact absurd (hzero ▸ hlow) (by decide)
      · exact fun heq => absurd heq hc
  simp only [encode, List.mem_flatMap, hchar, exists_eq_right]

end Utf16
