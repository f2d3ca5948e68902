import Mathlib.Algebra.GroupWithZero.Nat
import Mathlib.Data.Nat.Digits.Defs
import Mathlib.Data.Nat.Size
import UwfManager.Uwf.WmiOperations

/-!
# Exact conversions of WMI integers

An integer of a WMI provider arrives as a signed or an unsigned integer of 64 bits or as
decimal text.  A conversion returns the value itself or throws; it never rounds or wraps.
-/

namespace UwfManager

/-- `WmiValueConversionError` -/
structure WmiValueConversionError where
  what : Text
  deriving DecidableEq

/-- An integer of 64 bits in a WMI value. -/
inductive WmiInteger where
  | int (value : Int64)
  | uint (value : UInt64)

/-- The kinds of WMI values that hold an integer. -/
inductive WmiNumber where
  | integer (value : WmiInteger)
  | string (value : Text)

/-! ## `std::from_chars` -/

/-- The value of decimal digits, read from the left. -/
def digitsValue (digits : Text) : ℕ :=
  digits.foldl (fun value digit => value * 10 + (digit.toNat - '0'.toNat)) 0

/-- Reads a decimal number at the start of a text and tells what follows it.  There is none
when no digits are found or when the number does not fit; a sign is read for a signed type
only. -/
def fromChars (signed : Bool) (fits : ℤ → Bool) (text : Text) : Option (ℤ × Text) :=
  let negative := signed && text.head? == some '-'
  let unsignedPart := if negative then text.tail else text
  let digits := unsignedPart.takeWhile Char.isDigit
  let value : ℤ := if negative then -digitsValue digits else digitsValue digits
  if digits.isEmpty then none
  else if fits value then some (value, unsignedPart.dropWhile Char.isDigit)
  else none

def fitsInt64 (value : ℤ) : Bool := -2 ^ 63 ≤ value && value < 2 ^ 63

def fitsUInt64 (value : ℤ) : Bool := 0 ≤ value && value < 2 ^ 64

namespace WmiNumber

def conversionError {α : Type*} (shown : Text) (reason : String) :
    Except WmiValueConversionError α :=
  .error ⟨shown ++ reason.toList⟩

def shownInt (value : ℤ) : Text := (toString value).toList

def shownText (value : Text) : Text := '\'' :: value ++ ['\'']

def toInt64 : WmiNumber → Except WmiValueConversionError Int64
  | .integer (.int value) => .ok value
  | .integer (.uint value) =>
      if value > Int64.maxValue.toUInt64 then
        conversionError (shownInt value.toNat) " is outside the Int64 range"
      else .ok value.toInt64
  | .string text =>
      match fromChars true fitsInt64 text with
      | some (value, []) => .ok (Int64.ofInt value)
      | _ => conversionError (shownText text) " is not an Int64"

def toULongLong : WmiNumber → Except WmiValueConversionError UInt64
  | .integer (.int value) =>
      if value < 0 then conversionError (shownInt value.toInt) " is outside the UInt64 range"
      else .ok value.toUInt64
  | .integer (.uint value) => .ok value
  | .string text =>
      match fromChars false fitsUInt64 text with
      | some (value, []) => .ok (UInt64.ofNat value.toNat)
      | _ => conversionError (shownText text) " is not a UInt64"

def toInt (number : WmiNumber) : Except WmiValueConversionError Int32 := do
  let value ← number.toInt64
  if value < Int32.minValue.toInt64 ∨ value > Int32.maxValue.toInt64 then
    conversionError (shownInt value.toInt) " is outside the Int32 range"
  else .ok value.toInt32

def toUInt (number : WmiNumber) : Except WmiValueConversionError UInt32 := do
  let value ← number.toULongLong
  if value > UInt32.toUInt64 4294967295 then
    conversionError (shownInt value.toNat) " is outside the UInt32 range"
  else .ok value.toUInt32

end WmiNumber

namespace WmiInteger

def kDoubleSignificandBits : ℕ := 53

/-- `std::countl_zero` -/
def countlZero (magnitude : UInt64) : ℕ := 64 - magnitude.toNat.size

def isExactlyRepresentableAsDouble (magnitude : UInt64) : Bool :=
  if magnitude = 0 then true
  else
    let significantBits := 64 - countlZero magnitude
    if significantBits ≤ kDoubleSignificandBits then true
    else
      let discardedBits := significantBits - kDoubleSignificandBits
      let discardedMask := ((1 : UInt64) <<< UInt64.ofNat discardedBits) - 1
      magnitude &&& discardedMask == 0

def magnitudeOf (value : Int64) : UInt64 :=
  if value < 0 then (-(value + 1)).toUInt64 + 1 else value.toUInt64

/-- A double that is returned holds the integer exactly, so the integer stands for it. -/
def toDouble : WmiInteger → Except WmiValueConversionError ℤ
  | .int value =>
      if !isExactlyRepresentableAsDouble (magnitudeOf value) then
        WmiNumber.conversionError (WmiNumber.shownInt value.toInt)
          " cannot be represented exactly as a Double"
      else .ok value.toInt
  | .uint value =>
      if !isExactlyRepresentableAsDouble value then
        WmiNumber.conversionError (WmiNumber.shownInt value.toNat)
          " cannot be represented exactly as a Double"
      else .ok value.toNat

/-- The integer that is stored. -/
def value : WmiInteger → ℤ
  | .int value => value.toInt
  | .uint value => value.toNat

end WmiInteger

/-! ## Decimal text -/

/-- The text is the number in decimal digits, any number of them, behind a minus sign when
`negative` is set. -/
def IsDecimal (text : Text) (negative : Bool) (number : ℤ) : Prop :=
  ∃ digits : Text, digits ≠ [] ∧ (∀ c ∈ digits, c.isDigit = true) ∧
    text = (if negative then ['-'] else []) ++ digits ∧
    number = (if negative then -1 else 1) *
      (Nat.ofDigits 10 (digits.reverse.map fun digit => digit.toNat - '0'.toNat) : ℕ)

theorem digitsValue_eq (digits : Text) :
    digitsValue digits =
      Nat.ofDigits 10 (digits.reverse.map fun digit => digit.toNat - '0'.toNat) := by
  induction digits using List.reverseRecOn with
  | nil => rfl
  | append_singleton digits digit ih =>
      rw [List.reverse_append, List.reverse_singleton, List.singleton_append, List.map_cons,
        Nat.ofDigits_cons, ← ih, digitsValue, List.foldl_append]
      change digitsValue digits * 10 + _ = _
      omega

/-- Digits that nothing follows are read whole. -/
theorem takeWhile_digits {digits : Text} (hdigits : ∀ c ∈ digits, c.isDigit = true) :
    digits.takeWhile Char.isDigit = digits ∧ digits.dropWhile Char.isDigit = [] :=
  ⟨List.takeWhile_eq_self_iff.2 hdigits, List.dropWhile_eq_nil_iff.2 hdigits⟩

theorem head?_ne_of_digits {digits : Text} (hdigits : ∀ c ∈ digits, c.isDigit = true) :
    (digits.head? == some '-') = false := by
  cases digits with
  | nil => rfl
  | cons first rest =>
      have hfirst := hdigits first List.mem_cons_self
      rw [List.head?_cons, beq_eq_false_iff_ne]
      rintro hminus
      obtain rfl := Option.some_inj.1 hminus
      revert hfirst
      decide

/-- Decimal text is read whole when its number fits, and is refused otherwise. -/
theorem fromChars_decimal {text : Text} {negative : Bool} {number : ℤ}
    (hdecimal : IsDecimal text negative number) (signed : Bool) (fits : ℤ → Bool) :
    fromChars signed fits text =
      if fits number && (signed || !negative) then some (number, []) else none := by
  obtain ⟨digits, hne, hdigits, rfl, rfl⟩ := hdecimal
  obtain ⟨htake, hdrop⟩ := takeWhile_digits hdigits
  have hempty : digits.isEmpty = false := List.isEmpty_eq_false_iff.2 hne
  have hhead := head?_ne_of_digits hdigits
  rw [← digitsValue_eq]
  cases negative with
  | false => simp [fromChars, hhead, htake, hdrop, hempty]
  | true =>
      cases signed with
      | true => simp [fromChars, htake, hdrop, hempty]
      | false =>
          have hminus : Char.isDigit '-' = false := by decide
          simp [fromChars, hminus]

/-! ## The integer targets -/

namespace WmiNumber

/-- The value is the integer, or decimal text of it. -/
def Holds : WmiNumber → ℤ → Prop
  | .integer stored, number => stored.value = number
  | .string text, number => ∃ negative, IsDecimal text negative number

/-- No minus sign is written, as an unsigned target demands. -/
def Signless : WmiNumber → Prop
  | .integer _ => True
  | .string text => text.head? ≠ some '-'

theorem signless_decimal {text : Text} {negative : Bool} {number : ℤ}
    (hdecimal : IsDecimal text negative number) :
    (WmiNumber.string text).Signless ↔ negative = false := by
  obtain ⟨digits, hne, hdigits, rfl, rfl⟩ := hdecimal
  have hhead := head?_ne_of_digits hdigits
  cases negative with
  | false => simpa [Signless] using hhead
  | true => simp [Signless]

theorem decimal_nonneg {text : Text} {number : ℤ} (hdecimal : IsDecimal text false number) :
    0 ≤ number := by
  obtain ⟨digits, -, -, -, rfl⟩ := hdecimal
  simp

/-- A value is refused where no value of the target is the number. -/
theorem conversionError_eq_ok_iff {α : Type*} {shown : Text} {reason : String} {result : α}
    {holds : Prop} (hnone : ¬holds) : conversionError shown reason = .ok result ↔ holds := by
  refine iff_of_false (fun h => ?_) hnone
  cases h

theorem toInt64_int (stored result : Int64) :
    (WmiNumber.integer (.int stored)).toInt64 = .ok result ↔ result.toInt = stored.toInt := by
  rw [toInt64, Except.ok.injEq, Int64.toInt_inj]
  exact eq_comm

theorem toInt64_uint (stored : UInt64) (result : Int64) :
    (WmiNumber.integer (.uint stored)).toInt64 = .ok result ↔
      result.toInt = (stored.toNat : ℤ) := by
  have hmax : Int64.maxValue.toUInt64.toNat = 2 ^ 63 - 1 := by decide
  have hresult := result.toInt_lt
  rw [toInt64]
  by_cases hlarge : stored > Int64.maxValue.toUInt64
  · rw [if_pos hlarge]
    have hnat := UInt64.lt_iff_toNat_lt.1 hlarge
    exact conversionError_eq_ok_iff (by omega)
  · rw [if_neg hlarge, Except.ok.injEq, ← Int64.toInt_inj]
    have hnat : stored.toNat < 2 ^ 63 := by
      have := mt UInt64.lt_iff_toNat_lt.2 hlarge
      omega
    have hvalue : stored.toInt64.toInt = (stored.toNat : ℤ) := by
      calc stored.toInt64.toInt = ((stored.toNat : ℤ)).bmod (2 ^ 64) :=
            BitVec.toInt_eq_toNat_bmod stored.toBitVec
        _ = stored.toNat := Int.bmod_eq_of_le (by omega) (by omega)
    rw [hvalue]
    exact eq_comm

theorem toInt64_string {text : Text} {negative : Bool} {number : ℤ}
    (hdecimal : IsDecimal text negative number) (result : Int64) :
    (WmiNumber.string text).toInt64 = .ok result ↔ result.toInt = number := by
  rw [toInt64, fromChars_decimal hdecimal, Bool.true_or, Bool.and_true]
  by_cases hfits : fitsInt64 number = true
  · rw [if_pos hfits]
    rw [fitsInt64, Bool.and_eq_true, decide_eq_true_eq, decide_eq_true_eq] at hfits
    have hvalue : (Int64.ofInt number).toInt = number :=
      Int64.toInt_ofInt_of_le hfits.1 hfits.2
    rw [Except.ok.injEq, ← Int64.toInt_inj, hvalue]
    exact eq_comm
  · rw [if_neg hfits]
    apply conversionError_eq_ok_iff
    intro h
    apply hfits
    have hlower := result.le_toInt
    have hupper := result.toInt_lt
    rw [fitsInt64, Bool.and_eq_true, decide_eq_true_eq, decide_eq_true_eq]
    omega

theorem toInt64_exact {stored : WmiNumber} {number : ℤ} (hholds : stored.Holds number)
    (result : Int64) : stored.toInt64 = .ok result ↔ result.toInt = number := by
  cases stored with
  | integer stored =>
      cases stored with
      | int stored => exact hholds ▸ toInt64_int stored result
      | uint stored => exact hholds ▸ toInt64_uint stored result
  | string text => exact toInt64_string hholds.choose_spec result

theorem toULongLong_int (stored : Int64) (result : UInt64) :
    (WmiNumber.integer (.int stored)).toULongLong = .ok result ↔
      (result.toNat : ℤ) = stored.toInt := by
  rw [toULongLong]
  by_cases hnegative : stored < 0
  · rw [if_pos hnegative]
    have hint := Int64.lt_iff_toInt_lt.1 hnegative
    rw [Int64.toInt_zero] at hint
    exact conversionError_eq_ok_iff (by omega)
  · rw [if_neg hnegative, Except.ok.injEq, ← UInt64.toNat_inj]
    have hzero : 0 ≤ stored := Int64.not_lt.1 hnegative
    have hint := Int64.le_iff_toInt_le.1 hzero
    rw [Int64.toInt_zero] at hint
    rw [Int64.toNat_toUInt64_of_le hzero, ← Int64.toNat_toInt]
    omega

theorem toULongLong_uint (stored result : UInt64) :
    (WmiNumber.integer (.uint stored)).toULongLong = .ok result ↔
      (result.toNat : ℤ) = stored.toNat := by
  rw [toULongLong, Except.ok.injEq, Int.natCast_inj, UInt64.toNat_inj]
  exact eq_comm

theorem toULongLong_string {text : Text} {negative : Bool} {number : ℤ}
    (hdecimal : IsDecimal text negative number) (result : UInt64) :
    (WmiNumber.string text).toULongLong = .ok result ↔
      (result.toNat : ℤ) = number ∧ negative = false := by
  rw [toULongLong, fromChars_decimal hdecimal, Bool.false_or]
  cases negative with
  | true => simp [conversionError]
  | false =>
      have hnonneg := decimal_nonneg hdecimal
      have hresult := result.toNat_lt
      by_cases hfits : fitsUInt64 number = true
      · rw [hfits]
        rw [fitsUInt64, Bool.and_eq_true, decide_eq_true_eq, decide_eq_true_eq] at hfits
        have hvalue : (UInt64.ofNat number.toNat).toNat = number.toNat :=
          UInt64.toNat_ofNat_of_lt (by rw [UInt64.size]; omega)
        have hok : (Except.ok (UInt64.ofNat number.toNat) :
            Except WmiValueConversionError UInt64) = .ok result ↔ (result.toNat : ℤ) = number := by
          rw [Except.ok.injEq, ← UInt64.toNat_inj, hvalue]
          omega
        simpa using hok
      · rw [Bool.not_eq_true] at hfits
        have hlarge : ¬ (result.toNat : ℤ) = number := by
          intro h
          rw [fitsUInt64, Bool.and_eq_false_iff, decide_eq_false_iff_not,
            decide_eq_false_iff_not] at hfits
          omega
        simp [hfits, conversionError, hlarge]

theorem toULongLong_exact {stored : WmiNumber} {number : ℤ} (hholds : stored.Holds number)
    (result : UInt64) :
    stored.toULongLong = .ok result ↔ (result.toNat : ℤ) = number ∧ stored.Signless := by
  cases stored with
  | integer stored =>
      rw [and_iff_left (show (WmiNumber.integer stored).Signless from trivial)]
      cases stored with
      | int stored => exact hholds ▸ toULongLong_int stored result
      | uint stored => exact hholds ▸ toULongLong_uint stored result
  | string text =>
      have hdecimal := hholds.choose_spec
      rw [signless_decimal hdecimal]
      exact toULongLong_string hdecimal result

/-- The check against the bounds of 32 bits lets exactly the values of 32 bits through. -/
theorem toInt_exact {stored : WmiNumber} {number : ℤ} (hholds : stored.Holds number)
    (result : Int32) : stored.toInt = .ok result ↔ result.toInt = number := by
  have hlower := result.le_toInt
  have hupper := result.toInt_lt
  cases hwide : stored.toInt64 with
  | error e =>
      have herror : stored.toInt = .error e := by rw [toInt, hwide]; rfl
      rw [herror]
      constructor
      · intro h
        cases h
      · intro h
        have := (toInt64_exact hholds result.toInt64).2 (by rw [Int32.toInt_toInt64, h])
        rw [hwide] at this
        cases this
  | ok value =>
      have hvalue := (toInt64_exact hholds value).1 hwide
      have hdo : stored.toInt =
          if value < Int32.minValue.toInt64 ∨ value > Int32.maxValue.toInt64 then
            conversionError (shownInt value.toInt) " is outside the Int32 range"
          else .ok value.toInt32 := by
        rw [toInt, hwide]
        rfl
      have hbounds : (value < Int32.minValue.toInt64 ∨ value > Int32.maxValue.toInt64) ↔
          number < -2 ^ 31 ∨ 2 ^ 31 ≤ number := by
        rw [gt_iff_lt, Int64.lt_iff_toInt_lt, Int64.lt_iff_toInt_lt, Int32.toInt_toInt64,
          Int32.toInt_toInt64, Int32.toInt_minValue, Int32.toInt_maxValue, hvalue]
        omega
      rw [hdo]
      by_cases hout : value < Int32.minValue.toInt64 ∨ value > Int32.maxValue.toInt64
      · rw [if_pos hout]
        rw [hbounds] at hout
        exact conversionError_eq_ok_iff (by omega)
      · rw [if_neg hout, Except.ok.injEq, ← Int32.toInt_inj, Int64.toInt_toInt32, hvalue]
        rw [hbounds] at hout
        rw [Int.bmod_eq_of_le (by omega) (by omega)]
        exact eq_comm

theorem toUInt_exact {stored : WmiNumber} {number : ℤ} (hholds : stored.Holds number)
    (result : UInt32) :
    stored.toUInt = .ok result ↔ (result.toNat : ℤ) = number ∧ stored.Signless := by
  have hresult := result.toNat_lt
  cases hwide : stored.toULongLong with
  | error e =>
      have herror : stored.toUInt = .error e := by rw [toUInt, hwide]; rfl
      rw [herror]
      constructor
      · intro h
        cases h
      · intro h
        have := (toULongLong_exact hholds result.toUInt64).2 (by simpa using h)
        rw [hwide] at this
        cases this
  | ok value =>
      obtain ⟨hvalue, hsign⟩ := (toULongLong_exact hholds value).1 hwide
      have hdo : stored.toUInt =
          if value > UInt32.toUInt64 4294967295 then
            conversionError (shownInt value.toNat) " is outside the UInt32 range"
          else .ok value.toUInt32 := by
        rw [toUInt, hwide]
        rfl
      have hbound : value > UInt32.toUInt64 4294967295 ↔ 2 ^ 32 ≤ value.toNat := by
        have hmax : (UInt32.toUInt64 4294967295).toNat = 2 ^ 32 - 1 := by decide
        rw [gt_iff_lt, UInt64.lt_iff_toNat_lt, hmax]
        omega
      rw [hdo, and_iff_left hsign]
      by_cases hout : value > UInt32.toUInt64 4294967295
      · rw [if_pos hout]
        rw [hbound] at hout
        exact conversionError_eq_ok_iff (by omega)
      · rw [if_neg hout, Except.ok.injEq, ← UInt32.toNat_inj, UInt64.toNat_toUInt32]
        rw [hbound] at hout
        omega

end WmiNumber

/-! ## Exact doubles -/

namespace WmiInteger

/-- The magnitude needs no more than the significand's bits once powers of two are taken out. -/
def FitsSignificand (magnitude : ℕ) : Prop :=
  ∃ significand exponent : ℕ, significand < 2 ^ kDoubleSignificandBits ∧
    magnitude = significand * 2 ^ exponent

/-- A number of `bits + discarded` bits fits when its last `discarded` bits are zero. -/
theorem fitsSignificand_iff_dvd {magnitude discarded : ℕ}
    (hsize : magnitude.size = kDoubleSignificandBits + discarded) :
    FitsSignificand magnitude ↔ 2 ^ discarded ∣ magnitude := by
  have hupper : magnitude < 2 ^ (kDoubleSignificandBits + discarded) :=
    Nat.size_le.1 (le_of_eq hsize)
  constructor
  · rintro ⟨significand, exponent, hlt, rfl⟩
    -- the leading bit of the magnitude leaves no room for a smaller exponent
    have hlower : 2 ^ (52 + discarded) ≤ significand * 2 ^ exponent := by
      apply Nat.lt_size.1
      rw [hsize, kDoubleSignificandBits]
      omega
    have hless : significand * 2 ^ exponent < 2 ^ (53 + exponent) := by
      rw [pow_add]
      exact Nat.mul_lt_mul_of_pos_right hlt (Nat.two_pow_pos exponent)
    have hexponent : 52 + discarded < 53 + exponent :=
      (Nat.pow_lt_pow_iff_right (by norm_num)).1 (hlower.trans_lt hless)
    exact (pow_dvd_pow 2 (by omega)).trans (Dvd.intro_left significand rfl)
  · rintro ⟨significand, rfl⟩
    refine ⟨significand, discarded, ?_, Nat.mul_comm _ _⟩
    apply Nat.lt_of_mul_lt_mul_left (a := 2 ^ discarded)
    rwa [← pow_add, Nat.add_comm discarded]

theorem size_le_64 (magnitude : UInt64) : magnitude.toNat.size ≤ 64 :=
  Nat.size_le.2 magnitude.toNat_lt

theorem significantBits_eq (magnitude : UInt64) :
    64 - countlZero magnitude = magnitude.toNat.size := by
  have := size_le_64 magnitude
  rw [countlZero]
  omega

/-- The mask keeps the remainder by a power of two. -/
theorem masked_toNat (magnitude : UInt64) {bits : ℕ} (hbits : bits < 64) :
    (magnitude &&& (((1 : UInt64) <<< UInt64.ofNat bits) - 1)).toNat =
      magnitude.toNat % 2 ^ bits := by
  have hshift : ((1 : UInt64) <<< UInt64.ofNat bits).toNat = 2 ^ bits := by
    have hpow : 2 ^ bits < 2 ^ 64 := Nat.pow_lt_pow_right (by norm_num) hbits
    have hmod : bits % 2 ^ 64 % 64 = bits := by omega
    rw [UInt64.toNat_shiftLeft, UInt64.toNat_ofNat', hmod, UInt64.toNat_one, Nat.one_shiftLeft,
      Nat.mod_eq_of_lt hpow]
  have hmask : (((1 : UInt64) <<< UInt64.ofNat bits) - 1).toNat = 2 ^ bits - 1 := by
    rw [UInt64.toNat_sub_of_le, hshift, UInt64.toNat_one]
    rw [UInt64.le_iff_toNat_le, hshift, UInt64.toNat_one]
    exact Nat.one_le_two_pow
  rw [UInt64.toNat_and, hmask, Nat.and_two_pow_sub_one_eq_mod]

theorem isExactlyRepresentableAsDouble_iff (magnitude : UInt64) :
    isExactlyRepresentableAsDouble magnitude = true ↔ FitsSignificand magnitude.toNat := by
  have hsize := size_le_64 magnitude
  rw [isExactlyRepresentableAsDouble]
  by_cases hzero : magnitude = 0
  · rw [if_pos hzero, hzero]
    exact iff_of_true rfl ⟨0, 0, by norm_num [kDoubleSignificandBits], rfl⟩
  rw [if_neg hzero, significantBits_eq]
  by_cases hsmall : magnitude.toNat.size ≤ kDoubleSignificandBits
  · rw [if_pos hsmall]
    exact iff_of_true rfl ⟨magnitude.toNat, 0, Nat.size_le.1 hsmall, by simp⟩
  · rw [if_neg hsmall, @fitsSignificand_iff_dvd magnitude.toNat
      (magnitude.toNat.size - kDoubleSignificandBits) (by omega), Nat.dvd_iff_mod_eq_zero,
      ← masked_toNat magnitude (by rw [kDoubleSignificandBits]; omega), beq_iff_eq,
      ← UInt64.toNat_inj, UInt64.toNat_zero]

/-- The least value has a magnitude too: one is added before the sign is changed. -/
theorem magnitudeOf_toNat (value : Int64) :
    (magnitudeOf value).toNat = value.toInt.natAbs := by
  have hlower := value.le_toInt
  have hupper := value.toInt_lt
  rw [magnitudeOf]
  by_cases hnegative : value < 0
  · rw [if_pos hnegative]
    have hint := Int64.lt_iff_toInt_lt.1 hnegative
    rw [Int64.toInt_zero] at hint
    have hone : (1 : Int64).toInt = 1 := by decide
    have hsucc : (value + 1).toInt = value.toInt + 1 := by
      rw [Int64.toInt_add, hone]
      exact Int.bmod_eq_of_le (by omega) (by omega)
    have hneg : (-(value + 1)).toInt = -(value.toInt + 1) := by
      rw [Int64.toInt_neg, hsucc]
      exact Int.bmod_eq_of_le (by omega) (by omega)
    have hzero : 0 ≤ -(value + 1) := by
      rw [Int64.le_iff_toInt_le, Int64.toInt_zero, hneg]
      omega
    have hnat : (-(value + 1)).toUInt64.toNat = (-(value.toInt + 1)).toNat := by
      rw [Int64.toNat_toUInt64_of_le hzero, ← Int64.toNat_toInt, hneg]
    rw [UInt64.toNat_add, hnat, UInt64.toNat_one]
    omega
  · rw [if_neg hnegative]
    have hzero : 0 ≤ value := Int64.not_lt.1 hnegative
    have hint := Int64.le_iff_toInt_le.1 hzero
    rw [Int64.toInt_zero] at hint
    rw [Int64.toNat_toUInt64_of_le hzero, ← Int64.toNat_toInt]
    omega

/-- An integer has such a significand, of its own sign, when its magnitude has one. -/
theorem fitsSignificand_natAbs (number : ℤ) :
    FitsSignificand number.natAbs ↔
      ∃ (significand : ℤ) (exponent : ℕ), |significand| < 2 ^ 53 ∧
        number = significand * 2 ^ exponent := by
  constructor
  · rintro ⟨significand, exponent, hlt, heq⟩
    have hcast : (significand : ℤ) < 2 ^ 53 := by
      exact_mod_cast hlt
    have hmagnitude : (number.natAbs : ℤ) = significand * 2 ^ exponent := by
      rw [heq]
      push_cast
      rfl
    rcases Int.natAbs_eq number with hsign | hsign
    · exact ⟨significand, exponent, by rwa [abs_of_nonneg (Int.natCast_nonneg _)],
        hsign.trans hmagnitude⟩
    · refine ⟨-significand, exponent, by rwa [abs_neg, abs_of_nonneg (Int.natCast_nonneg _)], ?_⟩
      rw [hsign, hmagnitude, neg_mul]
  · rintro ⟨significand, exponent, hlt, rfl⟩
    refine ⟨significand.natAbs, exponent, ?_, ?_⟩
    · rw [Int.abs_eq_natAbs] at hlt
      exact_mod_cast hlt
    · rw [Int.natAbs_mul, Int.natAbs_pow]
      rfl

theorem toDouble_exact (stored : WmiInteger) (result : ℤ) :
    stored.toDouble = .ok result ↔
      result = stored.value ∧ ∃ (significand : ℤ) (exponent : ℕ), |significand| < 2 ^ 53 ∧
        stored.value = significand * 2 ^ exponent := by
  rw [← fitsSignificand_natAbs]
  cases stored with
  | int stored =>
      rw [toDouble, value, ← magnitudeOf_toNat, ← isExactlyRepresentableAsDouble_iff]
      cases isExactlyRepresentableAsDouble (magnitudeOf stored) with
      | true => simp [eq_comm]
      | false => simp [WmiNumber.conversionError]
  | uint stored =>
      rw [toDouble, value, Int.natAbs_natCast, ← isExactlyRepresentableAsDouble_iff]
      cases isExactlyRepresentableAsDouble stored with
      | true => simp [eq_comm]
      | false => simp [WmiNumber.conversionError]

end WmiInteger

/-- A conversion returns the held integer when the target has it and throws otherwise. -/
theorem WmiNumber.conversions_exact (stored : WmiNumber) (number : ℤ)
    (hholds : stored.Holds number) :
    (∀ result, stored.toInt = .ok result ↔ result.toInt = number) ∧
    (∀ result, stored.toInt64 = .ok result ↔ result.toInt = number) ∧
    (∀ result, stored.toUInt = .ok result ↔
      (result.toNat : ℤ) = number ∧ stored.Signless) ∧
    (∀ result, stored.toULongLong = .ok result ↔
      (result.toNat : ℤ) = number ∧ stored.Signless) ∧
    (∀ integer, stored = .integer integer → ∀ result, integer.toDouble = .ok result ↔
      result = number ∧ ∃ (significand : ℤ) (exponent : ℕ), |significand| < 2 ^ 53 ∧
        number = significand * 2 ^ exponent) := by
  refine ⟨toInt_exact hholds, toInt64_exact hholds, toUInt_exact hholds,
    toULongLong_exact hholds, ?_⟩
  rintro integer rfl result
  have hvalue : integer.value = number := hholds
  rw [← hvalue]
  exact WmiInteger.toDouble_exact integer result

theorem WmiNumber.conversions_exact_limits :
    (WmiNumber.string "-42".toList).toInt = .ok (-42) ∧
      WmiInteger.toDouble (.int Int64.minValue) = .ok (-2 ^ 63) := by
  have hdecimal : (WmiNumber.string "-42".toList).Holds (-42) :=
    ⟨true, "42".toList, by decide, List.all_eq_true.1 rfl, by decide, by decide⟩
  have hleast : (WmiNumber.integer (.int Int64.minValue)).Holds (-2 ^ 63) := Int64.toInt_minValue
  constructor
  · exact ((conversions_exact _ _ hdecimal).1 (-42)).2 (by decide)
  · apply ((conversions_exact _ _ hleast).2.2.2.2 _ rfl _).2
    exact ⟨rfl, -1, 63, by norm_num, by norm_num⟩

end UwfManager
