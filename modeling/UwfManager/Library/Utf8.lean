import Mathlib.Data.List.Basic
import Mathlib.Tactic.Common

/-!
# UTF-8 texts as lists of bytes

The bytes of a text, the positions between its characters, and a reader that
puts a replacement character where the bytes form none.
-/

namespace Utf8

def encode (text : List Char) : List UInt8 := text.flatMap String.utf8EncodeChar

/-- A byte that starts no character but continues one. -/
def isContinuation (byte : UInt8) : Bool := byte &&& 0xc0 == 0x80

def replacement : Char := '\uFFFD'

/-- Reads at most `fuel` characters; a byte that starts no character is replaced. -/
def decodeUpTo : ℕ → List UInt8 → List Char
  | 0, _ => []
  | _ + 1, [] => []
  | fuel + 1, byte :: rest =>
      match (byte :: rest).toByteArray.utf8DecodeChar? 0 with
      | some c => c :: decodeUpTo fuel ((byte :: rest).drop c.utf8Size)
      | none => replacement :: decodeUpTo fuel rest

def decode (bytes : List UInt8) : List Char := decodeUpTo bytes.length bytes

@[simp]
theorem encode_nil : encode [] = [] := rfl

@[simp]
theorem encode_cons (c : Char) (text : List Char) :
    encode (c :: text) = String.utf8EncodeChar c ++ encode text := rfl

theorem encode_append (first second : List Char) :
    encode (first ++ second) = encode first ++ encode second := List.flatMap_append

/-! ## Reading back -/

theorem decodeChar_encodeChar_append (c : Char) (rest : List UInt8) :
    (String.utf8EncodeChar c ++ rest).toByteArray.utf8DecodeChar? 0 = some c := by
  rw [List.toByteArray_append]
  exact ByteArray.utf8DecodeChar?_utf8EncodeChar_append

/-- The bytes a character is read from are the bytes it is written as. -/
theorem encodeChar_append_drop {bytes : List UInt8} {c : Char}
    (hchar : bytes.toByteArray.utf8DecodeChar? 0 = some c) :
    String.utf8EncodeChar c ++ bytes.drop c.utf8Size = bytes := by
  obtain ⟨rest, hbytes⟩ := ByteArray.exists_of_utf8DecodeChar?_eq_some hchar
  have hlist : bytes = String.utf8EncodeChar c ++ rest.data.toList := by
    have hdata := congrArg (fun array : ByteArray => array.data.toList) hbytes
    simpa using hdata
  have hlength : (String.utf8EncodeChar c).length = c.utf8Size := String.length_utf8EncodeChar c
  rw [hlist, ← hlength, List.drop_left]

theorem decodeUpTo_encode (text : List Char) {fuel : ℕ} (hfuel : (encode text).length ≤ fuel) :
    decodeUpTo fuel (encode text) = text := by
  induction text generalizing fuel with
  | nil => cases fuel <;> rfl
  | cons c text ih =>
      have hsize := String.length_utf8EncodeChar c
      have hpositive := c.utf8Size_pos
      rw [encode_cons] at hfuel ⊢
      rw [List.length_append, hsize] at hfuel
      have hdecode := decodeChar_encodeChar_append c (encode text)
      have hdrop : (String.utf8EncodeChar c ++ encode text).drop c.utf8Size = encode text := by
        rw [← hsize, List.drop_left]
      cases hbytes : String.utf8EncodeChar c ++ encode text with
      | nil =>
          have hlength := congrArg List.length hbytes
          rw [List.length_append, hsize, List.length_nil] at hlength
          omega
      | cons byte rest =>
          rw [hbytes] at hdecode hdrop
          cases fuel with
          | zero => omega
          | succ fuel =>
              rw [decodeUpTo, hdecode]
              dsimp only
              rw [hdrop, ih (by omega)]

@[simp]
theorem decode_encode (text : List Char) : decode (encode text) = text :=
  decodeUpTo_encode text (Nat.le_refl _)

theorem encode_injective : Function.Injective encode :=
  Function.LeftInverse.injective decode_encode

/-- Refuses bytes that are no text. -/
def decodeStrict (bytes : List UInt8) : Option (List Char) :=
  if encode (decode bytes) = bytes then some (decode bytes) else none

theorem decodeStrict_eq_some {bytes : List UInt8} {text : List Char} :
    decodeStrict bytes = some text ↔ encode text = bytes := by
  constructor
  · intro hread
    rw [decodeStrict] at hread
    split_ifs at hread with hbytes
    rw [← Option.some.inj hread]
    exact hbytes
  · rintro rfl
    rw [decodeStrict, decode_encode, if_pos rfl]

@[simp]
theorem decodeStrict_encode (text : List Char) : decodeStrict (encode text) = some text :=
  decodeStrict_eq_some.2 rfl

/-- The null character is written as a null. -/
theorem zero_mem_encode {text : List Char} (hnull : '\x00' ∈ text) : 0 ∈ encode text := by
  rw [encode, List.mem_flatMap]
  exact ⟨'\x00', hnull, by decide⟩

/-- Reading bytes and writing them again adds two bytes for each one replaced. -/
theorem length_encode_decodeUpTo {fuel : ℕ} {bytes : List UInt8} (hfuel : bytes.length ≤ fuel) :
    ∃ replaced, (encode (decodeUpTo fuel bytes)).length = bytes.length + 2 * replaced := by
  induction fuel generalizing bytes with
  | zero =>
      have hnil := List.length_eq_zero_iff.1 (Nat.le_zero.1 hfuel)
      exact ⟨0, by rw [hnil]; rfl⟩
  | succ fuel ih =>
      cases bytes with
      | nil => exact ⟨0, rfl⟩
      | cons byte rest =>
          rw [decodeUpTo]
          cases hchar : (byte :: rest).toByteArray.utf8DecodeChar? 0 with
          | none =>
              obtain ⟨replaced, hlength⟩ := @ih rest (Nat.le_of_succ_le_succ hfuel)
              refine ⟨replaced + 1, ?_⟩
              have hwidth : (String.utf8EncodeChar replacement).length = 3 := rfl
              dsimp only
              rw [encode_cons, List.length_append, hlength, hwidth, List.length_cons]
              omega
          | some c =>
              have hsplit := congrArg List.length (encodeChar_append_drop hchar)
              rw [List.length_append, String.length_utf8EncodeChar] at hsplit
              have hpositive := c.utf8Size_pos
              obtain ⟨replaced, hlength⟩ :=
                @ih ((byte :: rest).drop c.utf8Size) (by omega)
              refine ⟨replaced, ?_⟩
              dsimp only
              rw [encode_cons, List.length_append, String.length_utf8EncodeChar, hlength]
              omega

theorem length_encode_decode (bytes : List UInt8) :
    ∃ replaced, (encode (decode bytes)).length = bytes.length + 2 * replaced :=
  length_encode_decodeUpTo (Nat.le_refl _)

/-! ## Positions between characters -/

theorem isContinuation_low_bits (value : ℕ) :
    isContinuation (UInt8.ofNat (value % 64 + 128)) = true := by
  have hall : ∀ low < 64, isContinuation (UInt8.ofNat (low + 128)) = true := by decide
  exact hall (value % 64) (Nat.mod_lt _ (by omega))

/-- Every byte of a character but the first one continues it. -/
theorem isContinuation_of_mem_tail {c : Char} {byte : UInt8}
    (hbyte : byte ∈ (String.utf8EncodeChar c).tail) : isContinuation byte = true := by
  rw [String.utf8EncodeChar] at hbyte
  split_ifs at hbyte
  all_goals
    simp only [List.tail_cons, List.mem_cons, List.not_mem_nil, or_false] at hbyte
  · rw [hbyte]
    exact isContinuation_low_bits _
  · rcases hbyte with hbyte | hbyte <;> rw [hbyte] <;> exact isContinuation_low_bits _
  · rcases hbyte with hbyte | hbyte | hbyte <;> rw [hbyte] <;> exact isContinuation_low_bits _

/-- In front of a byte that continues no character the text can be cut. -/
theorem take_encode_of_not_continuation (text : List Char) {position : ℕ}
    (hstart : ∀ byte ∈ (encode text)[position]?, isContinuation byte = false) :
    ∃ count, (encode text).take position = encode (text.take count) := by
  induction text generalizing position with
  | nil => exact ⟨0, by rw [encode_nil, List.take_nil, List.take_nil, encode_nil]⟩
  | cons c text ih =>
      rw [encode_cons] at hstart ⊢
      have hne : String.utf8EncodeChar c ≠ [] := by
        apply List.ne_nil_of_length_pos
        rw [String.length_utf8EncodeChar]
        exact c.utf8Size_pos
      by_cases hinside : position < (String.utf8EncodeChar c).length
      · cases position with
        | zero => exact ⟨0, rfl⟩
        | succ position =>
            -- a position inside the character finds a byte that continues it
            have hbyte : (String.utf8EncodeChar c)[position + 1] ∈ (String.utf8EncodeChar c).tail := by
              rw [← List.getElem_tail (by rw [List.length_tail]; omega)]
              exact List.getElem_mem _
            have hcontinues := isContinuation_of_mem_tail hbyte
            rw [List.getElem?_append_left hinside, List.getElem?_eq_getElem hinside] at hstart
            rw [hstart _ rfl] at hcontinues
            contradiction
      · have hbehind := Nat.le_of_not_lt hinside
        rw [List.getElem?_append_right hbehind] at hstart
        obtain ⟨count, htake⟩ := ih hstart
        refine ⟨count + 1, ?_⟩
        rw [List.take_append, List.take_of_length_le hbehind, htake, List.take_succ_cons,
          encode_cons]

end Utf8
