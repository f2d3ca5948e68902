import Mathlib.Algebra.GroupWithZero.Nat
import Mathlib.Data.List.Basic
import Mathlib.Tactic.Common

/-!
# Little-endian fields of a byte string

A number stored in a fixed count of bytes, the least significant byte first, and
the fields a byte string is cut into.
-/

namespace LittleEndian

/-- The low `width` bytes of a number. -/
def encode : ℕ → ℕ → List UInt8
  | 0, _ => []
  | width + 1, value => UInt8.ofNat value :: encode width (value / 256)

def decode : List UInt8 → ℕ
  | [] => 0
  | byte :: rest => byte.toNat + 256 * decode rest

/-- The `width` bytes at `offset`. -/
def field (bytes : List UInt8) (offset width : ℕ) : List UInt8 :=
  (bytes.drop offset).take width

@[simp]
theorem length_encode (width value : ℕ) : (encode width value).length = width := by
  induction width generalizing value with
  | zero => rfl
  | succ width ih => rw [encode, List.length_cons, ih]

theorem decode_encode {width value : ℕ} (hvalue : value < 256 ^ width) :
    decode (encode width value) = value := by
  induction width generalizing value with
  | zero =>
      rw [Nat.pow_zero, Nat.lt_one_iff] at hvalue
      rw [hvalue]
      rfl
  | succ width ih =>
      have hrest : value / 256 < 256 ^ width := by
        rw [Nat.pow_succ] at hvalue
        exact Nat.div_lt_of_lt_mul (by rwa [Nat.mul_comm] at hvalue)
      have hfirst : (UInt8.ofNat value).toNat = value % 256 := UInt8.toNat_ofNat'
      rw [encode, decode, ih hrest, hfirst]
      exact Nat.mod_add_div value 256

theorem decode_lt (bytes : List UInt8) : decode bytes < 256 ^ bytes.length := by
  induction bytes with
  | nil => exact Nat.one_pos
  | cons byte rest ih =>
      have hbyte : byte.toNat < 256 := byte.toNat_lt
      rw [decode, List.length_cons, Nat.pow_succ]
      omega

theorem encode_decode (bytes : List UInt8) : encode bytes.length (decode bytes) = bytes := by
  induction bytes with
  | nil => rfl
  | cons byte rest ih =>
      have hbyte : byte.toNat < 256 := byte.toNat_lt
      have hquotient : (byte.toNat + 256 * decode rest) / 256 = decode rest := by omega
      have hfirst : UInt8.ofNat (byte.toNat + 256 * decode rest) = byte := by
        apply UInt8.toNat_inj.1
        rw [UInt8.toNat_ofNat']
        omega
      rw [List.length_cons, decode, encode, hquotient, hfirst, ih]

/-! ## Fields -/

section Fields

variable {bytes : List UInt8} {offset width : ℕ}

theorem length_field (hfits : offset + width ≤ bytes.length) :
    (field bytes offset width).length = width := by
  rw [field, List.length_take, List.length_drop]
  omega

/-- A number read from a field is written as the field. -/
theorem encode_eq_field (hfits : offset + width ≤ bytes.length) {value : ℕ}
    (hvalue : decode (field bytes offset width) = value) :
    encode width value = field bytes offset width := by
  have hround := encode_decode (field bytes offset width)
  rwa [length_field hfits, hvalue] at hround

theorem decode_field_lt (hfits : offset + width ≤ bytes.length) :
    decode (field bytes offset width) < 256 ^ width := by
  have hlt := decode_lt (field bytes offset width)
  rwa [length_field hfits] at hlt

theorem field_eq_drop (hsize : bytes.length = offset + width) :
    field bytes offset width = bytes.drop offset := by
  rw [field, List.take_of_length_le]
  rw [List.length_drop]
  omega

/-- A field and what follows it are what follows the bytes before it. -/
theorem field_append_drop (bytes : List UInt8) (offset width : ℕ) :
    field bytes offset width ++ bytes.drop (offset + width) = bytes.drop offset := by
  rw [field, ← List.drop_drop, List.take_append_drop]

/-- The bytes in front of a field do not matter for it. -/
theorem field_append {front : List UInt8} (rest : List UInt8) (hfront : front.length ≤ offset) :
    field (front ++ rest) offset width = field rest (offset - front.length) width := by
  rw [field, field, List.drop_append, List.drop_eq_nil_of_le hfront, List.nil_append]

theorem field_encode_append_of_le {before : ℕ} (value : ℕ) (rest : List UInt8)
    (hbefore : before ≤ offset) :
    field (encode before value ++ rest) offset width = field rest (offset - before) width := by
  have hlength := length_encode before value
  rw [field_append rest (by rwa [hlength]), hlength]

theorem field_encode_append (width value : ℕ) (rest : List UInt8) :
    field (encode width value ++ rest) 0 width = encode width value := by
  have hlength : (encode width value).length = width := length_encode width value
  rw [field, List.drop_zero, List.take_append_of_le_length (Nat.le_of_eq hlength.symm),
    List.take_of_length_le (Nat.le_of_eq hlength)]

end Fields

end LittleEndian
