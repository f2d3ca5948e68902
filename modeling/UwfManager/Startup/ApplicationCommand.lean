import UwfManager.Library.LittleEndian
import UwfManager.Library.Utf8
import UwfManager.Shared.Text

/-!
# The frames of the application command pipe

A second instance sends a command to the running one and receives its result in
a frame of fixed little-endian fields.  The file models both encoders, both
decoders and the size probe of the reading loop, and proves that a frame is
accepted exactly when an encoder writes it.
-/

namespace UwfManager

open LittleEndian (field)

/-! ## Commands and results -/

inductive ApplicationCommandKind where
  | activate
  | ensureRunning
  | commitStage
  deriving DecidableEq, Repr

inductive ApplicationCommandOutcome where
  | succeeded
  | completedWithFailures
  | rejected
  | failed
  deriving DecidableEq, Repr

/-- The counters are of type `size_t`, which has 64 bits here. -/
structure ApplicationCommandResult where
  outcome : ApplicationCommandOutcome := .succeeded
  discoveredFiles : UInt64 := 0
  committedFiles : UInt64 := 0
  skippedFiles : UInt64 := 0
  skippedEntries : UInt64 := 0
  failedFiles : UInt64 := 0
  detail : Text := []
  deriving DecidableEq

namespace ApplicationCommandResult

def infrastructureFailure (detail : Text) : ApplicationCommandResult :=
  { outcome := .failed, detail := detail }

def completed (result : ApplicationCommandResult) : Bool :=
  result.outcome = .succeeded || result.outcome = .completedWithFailures

end ApplicationCommandResult

structure ApplicationCommandRequest where
  kind : ApplicationCommandKind := .activate
  requestId : UInt64 := 0
  deriving DecidableEq

structure ApplicationCommandProtocolError where
  what : Text
  deriving DecidableEq

inductive FrameKind where
  | request
  | result
  deriving DecidableEq, Repr

def ApplicationCommandKind.raw : ApplicationCommandKind → ℕ
  | activate => 1
  | ensureRunning => 2
  | commitStage => 3

def ApplicationCommandKind.ofRaw? : ℕ → Option ApplicationCommandKind
  | 1 => some activate
  | 2 => some ensureRunning
  | 3 => some commitStage
  | _ => none

def ApplicationCommandOutcome.raw : ApplicationCommandOutcome → ℕ
  | succeeded => 1
  | completedWithFailures => 2
  | rejected => 3
  | failed => 4

def ApplicationCommandOutcome.ofRaw? : ℕ → Option ApplicationCommandOutcome
  | 1 => some succeeded
  | 2 => some completedWithFailures
  | 3 => some rejected
  | 4 => some failed
  | _ => none

def FrameKind.raw : FrameKind → ℕ
  | request => 1
  | result => 2

def FrameKind.ofRaw? : ℕ → Option FrameKind
  | 1 => some request
  | 2 => some result
  | _ => none

theorem ApplicationCommandKind.ofRaw?_eq_some_iff {value : ℕ} {kind : ApplicationCommandKind} :
    ofRaw? value = some kind ↔ value = kind.raw := by
  constructor
  · intro hkind
    rw [ofRaw?.eq_def] at hkind
    split at hkind <;> cases hkind <;> rfl
  · rintro rfl
    cases kind <;> rfl

theorem ApplicationCommandOutcome.ofRaw?_eq_some_iff {value : ℕ}
    {outcome : ApplicationCommandOutcome} : ofRaw? value = some outcome ↔ value = outcome.raw := by
  constructor
  · intro houtcome
    rw [ofRaw?.eq_def] at houtcome
    split at houtcome <;> cases houtcome <;> rfl
  · rintro rfl
    cases outcome <;> rfl

theorem FrameKind.ofRaw?_eq_some_iff {value : ℕ} {kind : FrameKind} :
    ofRaw? value = some kind ↔ value = kind.raw := by
  constructor
  · intro hkind
    rw [ofRaw?.eq_def] at hkind
    split at hkind <;> cases hkind <;> rfl
  · rintro rfl
    cases kind <;> rfl

/-! ## Frames -/

namespace ApplicationCommand

/-- The characters `UWFC`. -/
def kMagic : List UInt8 := [0x55, 0x57, 0x46, 0x43]

def kProtocolVersion : ℕ := 1
def kHeaderSize : ℕ := 24
def kResultFixedPayloadSize : ℕ := 48
def kMaximumPayloadSize : ℕ := 64 * 1024

/-- A line break and an ellipsis in UTF-8. -/
def kTruncatedDetailSuffix : Text := "\n…".toList

abbrev Decoded := Except ApplicationCommandProtocolError

def invalid {α : Type} (what : String) : Decoded α := .error ⟨what.toList⟩

def readInteger (width : ℕ) (bytes : List UInt8) (offset : ℕ) : Decoded ℕ :=
  if offset > bytes.length ∨ width > bytes.length - offset then
    invalid "application command frame is truncated"
  else .ok (LittleEndian.decode (field bytes offset width))

def makeFrame (kind : FrameKind) (requestId : UInt64) (payload : List UInt8) :
    Decoded (List UInt8) :=
  if requestId = 0 then invalid "application command request ID cannot be zero"
  else if payload.length > kMaximumPayloadSize then
    invalid "application command payload is too large"
  else
    .ok (kMagic ++ (LittleEndian.encode 2 kProtocolVersion ++ (LittleEndian.encode 2 kind.raw ++
      (LittleEndian.encode 8 requestId.toNat ++ (LittleEndian.encode 4 payload.length ++
        (LittleEndian.encode 4 0 ++ payload))))))

structure Frame where
  kind : FrameKind
  requestId : UInt64
  payload : List UInt8

/-- An incomplete frame is `none`, an invalid one an error. -/
def decodeFrame (bytes : List UInt8) : Decoded (Option Frame) :=
  if bytes.length < kHeaderSize then .ok none
  else if bytes.take kMagic.length ≠ kMagic then
    invalid "application command frame has an invalid signature"
  else do
    if (← readInteger 2 bytes 4) ≠ kProtocolVersion then
      invalid "application command protocol version is unsupported"
    else if (← readInteger 4 bytes 20) ≠ 0 then
      invalid "application command frame reserved field is nonzero"
    else
      match FrameKind.ofRaw? (← readInteger 2 bytes 6) with
      | none => invalid "application command frame kind is invalid"
      | some kind =>
          let payloadSize ← readInteger 4 bytes 16
          if payloadSize > kMaximumPayloadSize then
            invalid "application command payload is too large"
          else if bytes.length < kHeaderSize + payloadSize then .ok none
          else if bytes.length ≠ kHeaderSize + payloadSize then
            invalid "application command connection contains trailing data"
          else
            let requestId := UInt64.ofNat (← readInteger 8 bytes 8)
            if requestId = 0 then invalid "application command request ID cannot be zero"
            else .ok (some ⟨kind, requestId, field bytes kHeaderSize payloadSize⟩)

def validateResult (result : ApplicationCommandResult) : Decoded Unit :=
  if result.committedFiles > result.discoveredFiles ∨
      result.skippedFiles > result.discoveredFiles - result.committedFiles then
    invalid "application command result accounts for more files than were discovered"
  else if result.outcome = .succeeded ∧ result.failedFiles ≠ 0 then
    invalid "a successful application command result cannot contain failures"
  else if result.outcome = .completedWithFailures ∧ result.failedFiles = 0 then
    invalid "an application command result marked with failures must contain at least one failure"
  else .ok ()

/-- Walks back to a byte that starts a character. -/
def characterStart (detail : List UInt8) : ℕ → ℕ
  | 0 => 0
  | position + 1 =>
      if detail[position + 1]?.any Utf8.isContinuation then characterStart detail position
      else position + 1

def detailLimit : ℕ := kMaximumPayloadSize - kResultFixedPayloadSize

def encodeBoundedDetail (text : Text) : List UInt8 :=
  let detail := Utf8.encode text
  let suffix := Utf8.encode kTruncatedDetailSuffix
  if detail.length ≤ detailLimit then detail
  else detail.take (characterStart detail (detailLimit - suffix.length)) ++ suffix

/-- `QString::fromUtf8`, which drops a byte order mark in front of the text. -/
def fromUtf8 (bytes : List UInt8) : Text :=
  if bytes.take 3 = [0xef, 0xbb, 0xbf] then Utf8.decode (bytes.drop 3) else Utf8.decode bytes

/-! ## Requests and results -/

def encodeCommandRequest (request : ApplicationCommandRequest) : Decoded (List UInt8) :=
  makeFrame .request request.requestId
    (LittleEndian.encode 2 request.kind.raw ++ LittleEndian.encode 2 0)

/-- The fields in front of the detail. -/
def resultFields (result : ApplicationCommandResult) (detailSize : ℕ) : List UInt8 :=
  LittleEndian.encode 2 result.outcome.raw ++ (LittleEndian.encode 2 0 ++
    (LittleEndian.encode 8 result.discoveredFiles.toNat ++
    (LittleEndian.encode 8 result.committedFiles.toNat ++
    (LittleEndian.encode 8 result.skippedFiles.toNat ++
    (LittleEndian.encode 8 result.skippedEntries.toNat ++
    (LittleEndian.encode 8 result.failedFiles.toNat ++
      LittleEndian.encode 4 detailSize))))))

def encodeCommandResult (requestId : UInt64) (result : ApplicationCommandResult) :
    Decoded (List UInt8) := do
  validateResult result
  let detail := encodeBoundedDetail result.detail
  makeFrame .result requestId (resultFields result detail.length ++ detail)

def decodeCommandRequest (bytes : List UInt8) : Decoded (Option ApplicationCommandRequest) := do
  match ← decodeFrame bytes with
  | none => .ok none
  | some frame =>
      if frame.kind ≠ .request ∨ frame.payload.length ≠ 4 then
        invalid "application command request payload is invalid"
      else
        let rawKind ← readInteger 2 frame.payload 0
        if (← readInteger 2 frame.payload 2) ≠ 0 then
          invalid "application command request reserved field is nonzero"
        else
          match ApplicationCommandKind.ofRaw? rawKind with
          | none => invalid "application command request kind is invalid"
          | some kind => .ok (some ⟨kind, frame.requestId⟩)

def decodeCommandResult (bytes : List UInt8) :
    Decoded (Option (UInt64 × ApplicationCommandResult)) := do
  match ← decodeFrame bytes with
  | none => .ok none
  | some frame =>
      if frame.kind ≠ .result ∨ frame.payload.length < kResultFixedPayloadSize then
        invalid "application command result payload is invalid"
      else
        let rawOutcome ← readInteger 2 frame.payload 0
        if (← readInteger 2 frame.payload 2) ≠ 0 then
          invalid "application command result reserved field is nonzero"
        else
          match ApplicationCommandOutcome.ofRaw? rawOutcome with
          | none => invalid "application command result outcome is invalid"
          | some outcome =>
              let detailSize ← readInteger 4 frame.payload 44
              if kResultFixedPayloadSize + detailSize ≠ frame.payload.length then
                invalid "application command result detail length is invalid"
              else
                let detail := field frame.payload kResultFixedPayloadSize detailSize
                if Utf8.encode (fromUtf8 detail) ≠ detail then
                  invalid "application command result detail is not valid UTF-8"
                else
                  let result : ApplicationCommandResult :=
                    { outcome := outcome
                      discoveredFiles := UInt64.ofNat (← readInteger 8 frame.payload 4)
                      committedFiles := UInt64.ofNat (← readInteger 8 frame.payload 12)
                      skippedFiles := UInt64.ofNat (← readInteger 8 frame.payload 20)
                      skippedEntries := UInt64.ofNat (← readInteger 8 frame.payload 28)
                      failedFiles := UInt64.ofNat (← readInteger 8 frame.payload 36)
                      detail := fromUtf8 detail }
                  validateResult result
                  .ok (some (frame.requestId, result))

/-- Zero until the header is complete. -/
def applicationCommandFrameSize (bytes : List UInt8) : Decoded ℕ :=
  if bytes.length < kHeaderSize then .ok 0
  else if bytes.take kMagic.length ≠ kMagic then
    invalid "application command frame has an invalid signature"
  else do
    let payloadSize ← readInteger 4 bytes 16
    if payloadSize > kMaximumPayloadSize then
      invalid "application command payload is too large"
    else .ok (kHeaderSize + payloadSize)

/-! ## The bytes of a frame -/

theorem ok_bind {α β : Type} (value : α) (next : α → Decoded β) :
    (Except.ok value >>= next : Decoded β) = next value := rfl

theorem ite_invalid_eq_ok_iff {α : Type} {condition : Prop} [Decidable condition] {what : String}
    {rest : Decoded α} {value : α} :
    (if condition then invalid what else rest) = .ok value ↔ ¬condition ∧ rest = .ok value := by
  by_cases hcondition : condition
  · rw [if_pos hcondition]
    exact ⟨fun hinvalid => (by cases hinvalid), fun h => absurd hcondition h.1⟩
  · rw [if_neg hcondition]
    exact ⟨fun h => ⟨hcondition, h⟩, fun h => h.2⟩

theorem ite_none_eq_ok_some_iff {α : Type} {condition : Prop} [Decidable condition]
    {rest : Decoded (Option α)} {value : α} :
    (if condition then .ok none else rest) = .ok (some value) ↔
      ¬condition ∧ rest = .ok (some value) := by
  by_cases hcondition : condition
  · rw [if_pos hcondition]
    exact ⟨fun hnone => (by cases hnone), fun h => absurd hcondition h.1⟩
  · rw [if_neg hcondition]
    exact ⟨fun h => ⟨hcondition, h⟩, fun h => h.2⟩

theorem readInteger_of_le {width offset : ℕ} {bytes : List UInt8}
    (hfits : offset + width ≤ bytes.length) :
    readInteger width bytes offset = .ok (LittleEndian.decode (field bytes offset width)) := by
  rw [readInteger, if_neg (by omega)]

theorem length_kMagic : kMagic.length = 4 := rfl

/-- What the header of a complete frame of this kind says. -/
structure IsFrame (bytes : List UInt8) (kind : FrameKind) : Prop where
  magic : bytes.take kMagic.length = kMagic
  version : LittleEndian.decode (field bytes 4 2) = kProtocolVersion
  kind : LittleEndian.decode (field bytes 6 2) = kind.raw
  requestId : UInt64.ofNat (LittleEndian.decode (field bytes 8 8)) ≠ 0
  payloadSize : LittleEndian.decode (field bytes 16 4) ≤ kMaximumPayloadSize
  reserved : LittleEndian.decode (field bytes 20 4) = 0
  size : bytes.length = kHeaderSize + LittleEndian.decode (field bytes 16 4)

theorem IsFrame.header {bytes : List UInt8} {kind : FrameKind} (hframe : IsFrame bytes kind) :
    24 ≤ bytes.length := by
  rw [hframe.size, kHeaderSize]
  omega

/-- A frame is read exactly from the bytes whose header describes it. -/
theorem decodeFrame_eq_some_iff {bytes : List UInt8} {frame : Frame} :
    decodeFrame bytes = .ok (some frame) ↔
      IsFrame bytes frame.kind ∧
        frame.requestId = UInt64.ofNat (LittleEndian.decode (field bytes 8 8)) ∧
        frame.payload = bytes.drop kHeaderSize := by
  by_cases hheader : bytes.length < kHeaderSize
  · rw [decodeFrame, if_pos hheader]
    constructor
    · intro hread
      cases hread
    · rintro ⟨hframe, -⟩
      have hlength := hframe.header
      rw [kHeaderSize] at hheader
      omega
  have hlength : 24 ≤ bytes.length := Nat.le_of_not_lt hheader
  rw [decodeFrame, if_neg hheader, readInteger_of_le (by omega), readInteger_of_le (by omega),
    readInteger_of_le (by omega), readInteger_of_le (by omega), readInteger_of_le (by omega)]
  simp only [ok_bind, ite_invalid_eq_ok_iff, not_not]
  cases hkind : FrameKind.ofRaw? (LittleEndian.decode (field bytes 6 2)) with
  | none =>
      constructor
      · rintro ⟨-, -, -, hread⟩
        cases hread
      · rintro ⟨hframe, -⟩
        rw [FrameKind.ofRaw?_eq_some_iff.2 hframe.kind] at hkind
        cases hkind
  | some kind =>
      simp only [ite_invalid_eq_ok_iff, ite_none_eq_ok_some_iff, not_not, Except.ok.injEq,
        Option.some.injEq]
      have hraw := FrameKind.ofRaw?_eq_some_iff.1 hkind
      constructor
      · rintro ⟨hmagic, hversion, hreserved, hlarge, -, hsize, hid, rfl⟩
        exact ⟨⟨hmagic, hversion, hraw, hid, Nat.le_of_not_lt hlarge, hreserved, hsize⟩, rfl,
          LittleEndian.field_eq_drop hsize⟩
      · rintro ⟨hframe, hid, hpayload⟩
        have hkinds : kind = frame.kind :=
          Option.some.inj (hkind.symm.trans (FrameKind.ofRaw?_eq_some_iff.2 hframe.kind))
        refine ⟨hframe.magic, hframe.version, hframe.reserved, Nat.not_lt.2 hframe.payloadSize,
          Nat.not_lt.2 hframe.size.ge, hframe.size, hframe.requestId, ?_⟩
        rw [LittleEndian.field_eq_drop hframe.size, ← hid, ← hpayload, hkinds]

theorem field_kMagic_append {offset width : ℕ} (rest : List UInt8) (hoffset : 4 ≤ offset) :
    field (kMagic ++ rest) offset width = field rest (offset - 4) width :=
  LittleEndian.field_append rest hoffset

theorem raw_frameKind_lt (kind : FrameKind) : kind.raw < 256 ^ 2 := by
  cases kind <;> decide

/-- A frame is written exactly as the bytes whose header describes it. -/
theorem makeFrame_eq_ok_iff {kind : FrameKind} {requestId : UInt64} {payload bytes : List UInt8} :
    makeFrame kind requestId payload = .ok bytes ↔
      IsFrame bytes kind ∧
        requestId = UInt64.ofNat (LittleEndian.decode (field bytes 8 8)) ∧
        payload = bytes.drop kHeaderSize := by
  constructor
  · intro hmake
    rw [makeFrame, ite_invalid_eq_ok_iff, ite_invalid_eq_ok_iff, Except.ok.injEq] at hmake
    obtain ⟨hzero, hlarge, hbytes⟩ := hmake
    have hpayload := Nat.le_of_not_lt hlarge
    have hid : LittleEndian.decode (field bytes 8 8) = requestId.toNat := by
      rw [← hbytes]
      simp only [field_kMagic_append, LittleEndian.field_encode_append_of_le,
        LittleEndian.field_encode_append, Nat.reduceLeDiff, Nat.reduceSub, Nat.le_refl]
      exact LittleEndian.decode_encode requestId.toNat_lt
    have hsize : LittleEndian.decode (field bytes 16 4) = payload.length := by
      rw [← hbytes]
      simp only [field_kMagic_append, LittleEndian.field_encode_append_of_le,
        LittleEndian.field_encode_append, Nat.reduceLeDiff, Nat.reduceSub, Nat.le_refl]
      exact LittleEndian.decode_encode (by rw [kMaximumPayloadSize] at hpayload; omega)
    refine ⟨⟨?_, ?_, ?_, ?_, ?_, ?_, ?_⟩, ?_, ?_⟩
    · rw [← hbytes, List.take_left]
    · rw [← hbytes, field_kMagic_append _ (Nat.le_refl 4), LittleEndian.field_encode_append]
      decide
    · rw [← hbytes]
      simp only [field_kMagic_append, LittleEndian.field_encode_append_of_le,
        LittleEndian.field_encode_append, Nat.reduceLeDiff, Nat.reduceSub, Nat.le_refl]
      exact LittleEndian.decode_encode (raw_frameKind_lt kind)
    · rwa [hid, UInt64.ofNat_toNat]
    · rwa [hsize]
    · rw [← hbytes]
      simp only [field_kMagic_append, LittleEndian.field_encode_append_of_le,
        LittleEndian.field_encode_append, Nat.reduceLeDiff, Nat.reduceSub, Nat.le_refl]
      decide
    · rw [hsize, ← hbytes]
      simp [length_kMagic, kHeaderSize]
      omega
    · rw [hid, UInt64.ofNat_toNat]
    · rw [← hbytes]
      rfl
  · rintro ⟨hframe, rfl, rfl⟩
    have hlength := hframe.header
    have hpayload : (bytes.drop kHeaderSize).length = LittleEndian.decode (field bytes 16 4) := by
      rw [List.length_drop, hframe.size, Nat.add_sub_cancel_left]
    have hidRange : LittleEndian.decode (field bytes 8 8) < 2 ^ 64 :=
      LittleEndian.decode_field_lt (by omega)
    rw [makeFrame, if_neg hframe.requestId, hpayload, if_neg (Nat.not_lt.2 hframe.payloadSize),
      Except.ok.injEq, UInt64.toNat_ofNat_of_lt' hidRange]
    -- each field is read from its place, and the fields follow one another
    calc _ = bytes.take 4 ++ (field bytes 4 2 ++ (field bytes 6 2 ++ (field bytes 8 8 ++
            (field bytes 16 4 ++ (field bytes 20 4 ++ bytes.drop 24))))) := by
          rw [LittleEndian.encode_eq_field (by omega) hframe.version,
            LittleEndian.encode_eq_field (by omega) hframe.kind,
            LittleEndian.encode_eq_field (by omega) (Eq.refl (LittleEndian.decode _)),
            LittleEndian.encode_eq_field (by omega) (Eq.refl (LittleEndian.decode _)),
            LittleEndian.encode_eq_field (by omega) hframe.reserved, ← hframe.magic]
          rfl
      _ = bytes := by
          rw [LittleEndian.field_append_drop bytes 20 4, LittleEndian.field_append_drop bytes 16 4,
            LittleEndian.field_append_drop bytes 8 8, LittleEndian.field_append_drop bytes 6 2,
            LittleEndian.field_append_drop bytes 4 2, List.take_append_drop]

/-! ## The detail text -/

def byteOrderMark : Char := '\uFEFF'

theorem take_encode_eq_mark_iff (text : Text) :
    (Utf8.encode text).take 3 = [0xef, 0xbb, 0xbf] ↔ text.head? = some byteOrderMark := by
  have hmark : String.utf8EncodeChar byteOrderMark = [0xef, 0xbb, 0xbf] := by decide
  constructor
  · intro htake
    cases text with
    | nil => cases htake
    | cons c text =>
        have hsplit := List.take_append_drop 3 (Utf8.encode (c :: text))
        rw [htake, ← hmark, Utf8.encode_cons] at hsplit
        have hfirst := Utf8.decodeChar_encodeChar_append c (Utf8.encode text)
        rw [← hsplit, Utf8.decodeChar_encodeChar_append] at hfirst
        exact hfirst.symm
  · intro hhead
    cases text with
    | nil => cases hhead
    | cons c text =>
        rw [Option.some.inj hhead, Utf8.encode_cons, hmark]
        rfl

/-- Bytes pass the check of the decoder exactly if they are a text without a mark. -/
theorem fromUtf8_iff {bytes : List UInt8} {text : Text} :
    (Utf8.encode (fromUtf8 bytes) = bytes ∧ fromUtf8 bytes = text) ↔
      Utf8.encode text = bytes ∧ text.head? ≠ some byteOrderMark := by
  constructor
  · rintro ⟨hbytes, rfl⟩
    refine ⟨hbytes, ?_⟩
    by_cases hmark : bytes.take 3 = [0xef, 0xbb, 0xbf]
    · -- the mark is dropped, and no replacement adds the three bytes that are missing
      rw [fromUtf8, if_pos hmark] at hbytes
      obtain ⟨replaced, hlength⟩ := Utf8.length_encode_decode (bytes.drop 3)
      have hfront := congrArg List.length hmark
      rw [hbytes, List.length_drop] at hlength
      rw [List.length_take, List.length_cons, List.length_cons, List.length_cons,
        List.length_nil] at hfront
      omega
    · rwa [ne_eq, ← take_encode_eq_mark_iff, hbytes]
  · rintro ⟨rfl, hmark⟩
    have htext : fromUtf8 (Utf8.encode text) = text := by
      rw [fromUtf8, if_neg (mt (take_encode_eq_mark_iff text).1 hmark), Utf8.decode_encode]
    rw [htext]
    exact ⟨rfl, rfl⟩

theorem characterStart_le (detail : List UInt8) (position : ℕ) :
    characterStart detail position ≤ position := by
  induction position with
  | zero => exact Nat.le_refl 0
  | succ position ih =>
      rw [characterStart]
      split_ifs
      · omega
      · exact Nat.le_refl _

theorem characterStart_spec (detail : List UInt8) (position : ℕ) :
    characterStart detail position = 0 ∨
      detail[characterStart detail position]?.any Utf8.isContinuation = false := by
  induction position with
  | zero => exact Or.inl rfl
  | succ position ih =>
      rw [characterStart]
      split_ifs with hcontinues
      · exact ih
      · exact Or.inr (Bool.eq_false_iff.2 hcontinues)

theorem take_characterStart (text : Text) (position : ℕ) :
    ∃ count, (Utf8.encode text).take (characterStart (Utf8.encode text) position) =
      Utf8.encode (text.take count) := by
  rcases characterStart_spec (Utf8.encode text) position with hzero | hstart
  · exact ⟨0, by rw [hzero, List.take_zero, List.take_zero, Utf8.encode_nil]⟩
  · apply Utf8.take_encode_of_not_continuation
    intro byte hbyte
    rw [hbyte] at hstart
    exact hstart

/-- The detail that arrives for this text: the text itself where it fits, and
whole characters of its front with the mark of the cut elsewhere. -/
structure Shown (text shown : Text) : Prop where
  fits : (Utf8.encode text).length ≤ detailLimit → shown = text
  cut : detailLimit < (Utf8.encode text).length →
    ∃ count, shown = text.take count ++ kTruncatedDetailSuffix
  bounded : (Utf8.encode shown).length ≤ detailLimit

theorem length_kTruncatedDetailSuffix : (Utf8.encode kTruncatedDetailSuffix).length = 4 := by
  decide

theorem encodeBoundedDetail_spec (text : Text) :
    ∃ shown, encodeBoundedDetail text = Utf8.encode shown ∧ Shown text shown := by
  rw [encodeBoundedDetail]
  by_cases hfits : (Utf8.encode text).length ≤ detailLimit
  · rw [if_pos hfits]
    exact ⟨text, rfl, fun _ => rfl, fun hcut => absurd hfits (Nat.not_le.2 hcut), hfits⟩
  · rw [if_neg hfits, length_kTruncatedDetailSuffix]
    obtain ⟨count, htake⟩ := take_characterStart text (detailLimit - 4)
    have hle := characterStart_le (Utf8.encode text) (detailLimit - 4)
    have hlimit : 4 ≤ detailLimit := by decide
    have hencode : (Utf8.encode text).take (characterStart (Utf8.encode text) (detailLimit - 4)) ++
        Utf8.encode kTruncatedDetailSuffix =
          Utf8.encode (text.take count ++ kTruncatedDetailSuffix) := by
      rw [htake, Utf8.encode_append]
    refine ⟨_, hencode, fun h => absurd h hfits, fun _ => ⟨count, rfl⟩, ?_⟩
    rw [← hencode, List.length_append, List.length_take, length_kTruncatedDetailSuffix]
    omega

/-- Cutting a text does not put a mark in front of it. -/
theorem Shown.head {text shown : Text} (hshown : Shown text shown)
    (hmark : text.head? ≠ some byteOrderMark) : shown.head? ≠ some byteOrderMark := by
  by_cases hfits : (Utf8.encode text).length ≤ detailLimit
  · rwa [hshown.fits hfits]
  · obtain ⟨count, rfl⟩ := hshown.cut (Nat.lt_of_not_le hfits)
    cases text with
    | nil =>
        rw [List.take_nil]
        decide
    | cons c text =>
        cases count with
        | zero =>
            rw [List.take_zero]
            decide
        | succ count => exact hmark

/-! ## Payloads -/

structure IsRequestPayload (payload : List UInt8) (kind : ApplicationCommandKind) : Prop where
  kind : LittleEndian.decode (field payload 0 2) = kind.raw
  reserved : LittleEndian.decode (field payload 2 2) = 0
  size : payload.length = 4

/-- The relations between the counters and the outcome. -/
structure ValidResult (result : ApplicationCommandResult) : Prop where
  committed : result.committedFiles ≤ result.discoveredFiles
  skipped : result.skippedFiles ≤ result.discoveredFiles - result.committedFiles
  succeeded : result.outcome = .succeeded → result.failedFiles = 0
  failed : result.outcome = .completedWithFailures → result.failedFiles ≠ 0

theorem ValidResult.withDetail {result : ApplicationCommandResult} (hvalid : ValidResult result)
    (detail : Text) : ValidResult { result with detail := detail } :=
  ⟨hvalid.committed, hvalid.skipped, hvalid.succeeded, hvalid.failed⟩

theorem validateResult_eq_ok_iff (result : ApplicationCommandResult) :
    validateResult result = .ok () ↔ ValidResult result := by
  rw [validateResult, ite_invalid_eq_ok_iff, ite_invalid_eq_ok_iff, ite_invalid_eq_ok_iff]
  constructor
  · rintro ⟨hfiles, hsucceeded, hfailed, -⟩
    rw [not_or] at hfiles
    exact ⟨UInt64.not_lt.1 hfiles.1, UInt64.not_lt.1 hfiles.2,
      fun houtcome => not_not.1 fun hne => hsucceeded ⟨houtcome, hne⟩,
      fun houtcome hzero => hfailed ⟨houtcome, hzero⟩⟩
  · intro hvalid
    refine ⟨?_, fun h => h.2 (hvalid.succeeded h.1), fun h => hvalid.failed h.1 h.2, rfl⟩
    rw [not_or]
    exact ⟨UInt64.not_lt.2 hvalid.committed, UInt64.not_lt.2 hvalid.skipped⟩

structure IsResultPayload (payload : List UInt8) (result : ApplicationCommandResult) : Prop where
  outcome : LittleEndian.decode (field payload 0 2) = result.outcome.raw
  reserved : LittleEndian.decode (field payload 2 2) = 0
  discovered : LittleEndian.decode (field payload 4 8) = result.discoveredFiles.toNat
  committed : LittleEndian.decode (field payload 12 8) = result.committedFiles.toNat
  skippedFiles : LittleEndian.decode (field payload 20 8) = result.skippedFiles.toNat
  skippedEntries : LittleEndian.decode (field payload 28 8) = result.skippedEntries.toNat
  failed : LittleEndian.decode (field payload 36 8) = result.failedFiles.toNat
  size : payload.length = kResultFixedPayloadSize + LittleEndian.decode (field payload 44 4)
  detail : Utf8.encode result.detail = payload.drop kResultFixedPayloadSize
  noMark : result.detail.head? ≠ some byteOrderMark
  valid : ValidResult result

theorem raw_commandKind_lt (kind : ApplicationCommandKind) : kind.raw < 256 ^ 2 := by
  cases kind <;> decide

theorem raw_outcome_lt (outcome : ApplicationCommandOutcome) : outcome.raw < 256 ^ 2 := by
  cases outcome <;> decide

theorem isRequestPayload_iff {payload : List UInt8} {kind : ApplicationCommandKind} :
    IsRequestPayload payload kind ↔
      payload = LittleEndian.encode 2 kind.raw ++ LittleEndian.encode 2 0 := by
  constructor
  · intro hpayload
    have hsize := hpayload.size
    calc payload = field payload 0 2 ++ (field payload 2 2 ++ payload.drop 4) := by
          rw [LittleEndian.field_append_drop payload 2 2, LittleEndian.field_append_drop payload 0 2,
            List.drop_zero]
      _ = LittleEndian.encode 2 kind.raw ++ LittleEndian.encode 2 0 := by
          rw [List.drop_eq_nil_of_le hsize.le, List.append_nil,
            LittleEndian.encode_eq_field (by omega) hpayload.kind,
            LittleEndian.encode_eq_field (by omega) hpayload.reserved]
  · rintro rfl
    refine ⟨?_, ?_, rfl⟩
    · rw [LittleEndian.field_encode_append]
      exact LittleEndian.decode_encode (raw_commandKind_lt kind)
    · rw [LittleEndian.field_encode_append_of_le _ _ (Nat.le_refl 2),
        ← List.append_nil (LittleEndian.encode 2 0), LittleEndian.field_encode_append]
      decide

theorem length_resultFields (result : ApplicationCommandResult) (detailSize : ℕ) :
    (resultFields result detailSize).length = kResultFixedPayloadSize := by
  simp only [resultFields, List.length_append, LittleEndian.length_encode,
    kResultFixedPayloadSize]

/-- The bytes before the detail are the fields they are read as. -/
theorem resultFields_eq_take {payload : List UInt8} {result : ApplicationCommandResult}
    (hpayload : IsResultPayload payload result) :
    resultFields result (Utf8.encode result.detail).length =
      payload.take kResultFixedPayloadSize := by
  have hsize : 48 ≤ payload.length := by
    rw [hpayload.size, kResultFixedPayloadSize]
    omega
  have hdetail : (Utf8.encode result.detail).length =
      LittleEndian.decode (field payload 44 4) := by
    rw [hpayload.detail, List.length_drop, hpayload.size, Nat.add_sub_cancel_left]
  apply (List.append_left_inj (payload.drop 48)).1
  calc resultFields result (Utf8.encode result.detail).length ++ payload.drop 48
      = field payload 0 2 ++ (field payload 2 2 ++ (field payload 4 8 ++ (field payload 12 8 ++
          (field payload 20 8 ++ (field payload 28 8 ++ (field payload 36 8 ++
            (field payload 44 4 ++ payload.drop 48))))))) := by
        rw [resultFields, LittleEndian.encode_eq_field (by omega) hpayload.outcome,
          LittleEndian.encode_eq_field (by omega) hpayload.reserved,
          LittleEndian.encode_eq_field (by omega) hpayload.discovered,
          LittleEndian.encode_eq_field (by omega) hpayload.committed,
          LittleEndian.encode_eq_field (by omega) hpayload.skippedFiles,
          LittleEndian.encode_eq_field (by omega) hpayload.skippedEntries,
          LittleEndian.encode_eq_field (by omega) hpayload.failed,
          LittleEndian.encode_eq_field (by omega) hdetail.symm]
        simp only [List.append_assoc]
    _ = payload := by
        rw [LittleEndian.field_append_drop payload 44 4, LittleEndian.field_append_drop payload 36 8,
          LittleEndian.field_append_drop payload 28 8, LittleEndian.field_append_drop payload 20 8,
          LittleEndian.field_append_drop payload 12 8, LittleEndian.field_append_drop payload 4 8,
          LittleEndian.field_append_drop payload 2 2, LittleEndian.field_append_drop payload 0 2,
          List.drop_zero]
    _ = payload.take 48 ++ payload.drop 48 := (List.take_append_drop 48 payload).symm

/-- A payload says this result exactly if it is the fields of the result and its detail. -/
theorem isResultPayload_iff {payload : List UInt8} {result : ApplicationCommandResult}
    (hbound : payload.length ≤ kMaximumPayloadSize) :
    IsResultPayload payload result ↔
      payload = resultFields result (Utf8.encode result.detail).length ++
          Utf8.encode result.detail ∧
        result.detail.head? ≠ some byteOrderMark ∧ ValidResult result := by
  constructor
  · intro hpayload
    refine ⟨?_, hpayload.noMark, hpayload.valid⟩
    rw [resultFields_eq_take hpayload, hpayload.detail, List.take_append_drop]
  · rintro ⟨hpayload, hmark, hvalid⟩
    have hlength := congrArg List.length hpayload
    rw [List.length_append, length_resultFields] at hlength
    have hdetail : LittleEndian.decode (field payload 44 4) =
        (Utf8.encode result.detail).length := by
      rw [hpayload]
      simp only [resultFields, List.append_assoc, LittleEndian.field_encode_append_of_le,
        LittleEndian.field_encode_append, Nat.reduceLeDiff, Nat.reduceSub]
      apply LittleEndian.decode_encode
      rw [kMaximumPayloadSize] at hbound
      omega
    refine ⟨?_, ?_, ?_, ?_, ?_, ?_, ?_, by rw [hdetail, hlength], ?_, hmark, hvalid⟩
    case refine_8 =>
      conv_rhs => rw [hpayload, ← length_resultFields result (Utf8.encode result.detail).length,
        List.drop_left]
    all_goals
      rw [hpayload]
      simp only [resultFields, List.append_assoc, LittleEndian.field_encode_append_of_le,
        LittleEndian.field_encode_append, Nat.reduceLeDiff, Nat.reduceSub, Nat.le_refl]
    · exact LittleEndian.decode_encode (raw_outcome_lt result.outcome)
    · decide
    · exact LittleEndian.decode_encode result.discoveredFiles.toNat_lt
    · exact LittleEndian.decode_encode result.committedFiles.toNat_lt
    · exact LittleEndian.decode_encode result.skippedFiles.toNat_lt
    · exact LittleEndian.decode_encode result.skippedEntries.toNat_lt
    · exact LittleEndian.decode_encode result.failedFiles.toNat_lt

/-! ## Decoding and encoding -/

theorem length_payload_le {bytes : List UInt8} {kind : FrameKind} (hframe : IsFrame bytes kind) :
    (bytes.drop kHeaderSize).length ≤ kMaximumPayloadSize := by
  rw [List.length_drop, hframe.size, Nat.add_sub_cancel_left]
  exact hframe.payloadSize

theorem decodeFrame_then_iff {α : Type} {bytes : List UInt8} {next : Frame → Decoded (Option α)}
    {value : α} :
    (decodeFrame bytes >>= fun frame? =>
        match frame? with
        | none => .ok none
        | some frame => next frame) = .ok (some value) ↔
      ∃ frame, decodeFrame bytes = .ok (some frame) ∧ next frame = .ok (some value) := by
  cases decodeFrame bytes with
  | error thrown =>
      constructor
      · intro hread
        cases hread
      · rintro ⟨frame, hframe, -⟩
        cases hframe
  | ok frame? =>
      cases frame? with
      | none =>
          constructor
          · intro hread
            cases hread
          · rintro ⟨frame, hframe, -⟩
            cases hframe
      | some frame =>
          constructor
          · intro hread
            exact ⟨frame, rfl, hread⟩
          · rintro ⟨_, hframe, hread⟩
            cases hframe
            exact hread

theorem decodeCommandRequest_eq_some_iff {bytes : List UInt8}
    {request : ApplicationCommandRequest} :
    decodeCommandRequest bytes = .ok (some request) ↔
      IsFrame bytes .request ∧
        request.requestId = UInt64.ofNat (LittleEndian.decode (field bytes 8 8)) ∧
        IsRequestPayload (bytes.drop kHeaderSize) request.kind := by
  refine decodeFrame_then_iff.trans ?_
  constructor
  · rintro ⟨⟨kind, requestId, payload⟩, hframe, hread⟩
    obtain ⟨hheader, hid, rfl⟩ := decodeFrame_eq_some_iff.1 hframe
    rw [ite_invalid_eq_ok_iff, not_or, not_not, not_not] at hread
    obtain ⟨⟨hkind, hsize⟩, hread⟩ := hread
    rw [readInteger_of_le (by omega), ok_bind, readInteger_of_le (by omega), ok_bind,
      ite_invalid_eq_ok_iff, not_not] at hread
    obtain ⟨hreserved, hread⟩ := hread
    cases hraw : ApplicationCommandKind.ofRaw?
        (LittleEndian.decode (field (bytes.drop kHeaderSize) 0 2)) with
    | none =>
        rw [hraw] at hread
        cases hread
    | some kind =>
        rw [hraw] at hread
        cases hread
        dsimp only at hkind hheader
        rw [hkind] at hheader
        exact ⟨hheader, hid, ApplicationCommandKind.ofRaw?_eq_some_iff.1 hraw, hreserved, hsize⟩
  · rintro ⟨hheader, hid, hpayload⟩
    have hsize := hpayload.size
    refine ⟨⟨.request, request.requestId, bytes.drop kHeaderSize⟩,
      decodeFrame_eq_some_iff.2 ⟨hheader, hid, rfl⟩, ?_⟩
    rw [ite_invalid_eq_ok_iff, not_or, not_not, not_not]
    refine ⟨⟨rfl, hsize⟩, ?_⟩
    dsimp only
    rw [readInteger_of_le (by omega), ok_bind, readInteger_of_le (by omega), ok_bind,
      ite_invalid_eq_ok_iff, not_not, ApplicationCommandKind.ofRaw?_eq_some_iff.2 hpayload.kind]
    exact ⟨hpayload.reserved, rfl⟩

theorem encodeCommandRequest_eq_ok_iff {bytes : List UInt8} {request : ApplicationCommandRequest} :
    encodeCommandRequest request = .ok bytes ↔
      IsFrame bytes .request ∧
        request.requestId = UInt64.ofNat (LittleEndian.decode (field bytes 8 8)) ∧
        IsRequestPayload (bytes.drop kHeaderSize) request.kind := by
  rw [encodeCommandRequest, makeFrame_eq_ok_iff, isRequestPayload_iff]
  exact and_congr_right fun _ => and_congr_right fun _ => eq_comm

theorem validateResult_then_iff {α : Type} {result : ApplicationCommandResult} {rest : Decoded α}
    {value : α} :
    (validateResult result >>= fun _ => rest) = .ok value ↔
      ValidResult result ∧ rest = .ok value := by
  rw [← validateResult_eq_ok_iff]
  cases validateResult result with
  | error thrown =>
      constructor
      · intro hread
        cases hread
      · rintro ⟨hvalid, -⟩
        cases hvalid
  | ok _ => exact ⟨fun hrest => ⟨rfl, hrest⟩, fun h => h.2⟩

theorem decodeCommandResult_eq_some_iff {bytes : List UInt8} {requestId : UInt64}
    {result : ApplicationCommandResult} :
    decodeCommandResult bytes = .ok (some (requestId, result)) ↔
      IsFrame bytes .result ∧
        requestId = UInt64.ofNat (LittleEndian.decode (field bytes 8 8)) ∧
        IsResultPayload (bytes.drop kHeaderSize) result := by
  refine decodeFrame_then_iff.trans ?_
  constructor
  · rintro ⟨⟨kind, frameId, payload⟩, hframe, hread⟩
    obtain ⟨hheader, hid, rfl⟩ := decodeFrame_eq_some_iff.1 hframe
    rw [ite_invalid_eq_ok_iff, not_or, not_not, not_lt, kResultFixedPayloadSize] at hread
    obtain ⟨⟨hkind, hfixed⟩, hread⟩ := hread
    dsimp only at hkind hfixed hheader hid hread
    rw [hkind] at hheader
    rw [readInteger_of_le (by omega), ok_bind, readInteger_of_le (by omega), ok_bind,
      ite_invalid_eq_ok_iff, not_not] at hread
    obtain ⟨hreserved, hread⟩ := hread
    cases hraw : ApplicationCommandOutcome.ofRaw?
        (LittleEndian.decode (field (bytes.drop kHeaderSize) 0 2)) with
    | none =>
        rw [hraw] at hread
        cases hread
    | some outcome =>
        rw [hraw] at hread
        dsimp only at hread
        rw [readInteger_of_le (by omega), ok_bind, ite_invalid_eq_ok_iff, not_not,
          ite_invalid_eq_ok_iff, not_not, readInteger_of_le (by omega), ok_bind,
          readInteger_of_le (by omega), ok_bind, readInteger_of_le (by omega), ok_bind,
          readInteger_of_le (by omega), ok_bind, readInteger_of_le (by omega), ok_bind,
          validateResult_then_iff] at hread
        obtain ⟨hsize, hdetail, hvalid, hread⟩ := hread
        have hcounter : ∀ offset, offset + 8 ≤ (bytes.drop kHeaderSize).length →
            LittleEndian.decode (field (bytes.drop kHeaderSize) offset 8) =
              (UInt64.ofNat (LittleEndian.decode
                (field (bytes.drop kHeaderSize) offset 8))).toNat := by
          intro offset hfits
          exact (UInt64.toNat_ofNat_of_lt' (LittleEndian.decode_field_lt hfits)).symm
        have htext := fromUtf8_iff.1 ⟨hdetail, rfl⟩
        rw [LittleEndian.field_eq_drop hsize.symm] at htext
        cases hread
        refine ⟨hheader, hid, ⟨ApplicationCommandOutcome.ofRaw?_eq_some_iff.1 hraw, hreserved,
          hcounter 4 (by omega), hcounter 12 (by omega), hcounter 20 (by omega),
          hcounter 28 (by omega), hcounter 36 (by omega), hsize.symm, ?_, ?_, hvalid⟩⟩
        · dsimp only
          rw [LittleEndian.field_eq_drop hsize.symm]
          exact htext.1
        · dsimp only
          rw [LittleEndian.field_eq_drop hsize.symm]
          exact htext.2
  · rintro ⟨hheader, hid, hpayload⟩
    have hsize := hpayload.size
    have hfixed : 48 ≤ (bytes.drop kHeaderSize).length := by
      rw [hsize, kResultFixedPayloadSize]
      omega
    obtain ⟨hvalidText, htext⟩ := fromUtf8_iff.2 ⟨hpayload.detail, hpayload.noMark⟩
    refine ⟨⟨.result, requestId, bytes.drop kHeaderSize⟩,
      decodeFrame_eq_some_iff.2 ⟨hheader, hid, rfl⟩, ?_⟩
    rw [ite_invalid_eq_ok_iff, not_or, not_not, not_lt]
    refine ⟨⟨rfl, hfixed⟩, ?_⟩
    dsimp only
    rw [readInteger_of_le (by omega), ok_bind, readInteger_of_le (by omega), ok_bind,
      ite_invalid_eq_ok_iff, not_not, ApplicationCommandOutcome.ofRaw?_eq_some_iff.2 hpayload.outcome]
    refine ⟨hpayload.reserved, ?_⟩
    dsimp only
    rw [readInteger_of_le (by omega), ok_bind, ite_invalid_eq_ok_iff, not_not,
      ite_invalid_eq_ok_iff, not_not, readInteger_of_le (by omega), ok_bind,
      readInteger_of_le (by omega), ok_bind, readInteger_of_le (by omega), ok_bind,
      readInteger_of_le (by omega), ok_bind, readInteger_of_le (by omega), ok_bind,
      validateResult_then_iff, LittleEndian.field_eq_drop hsize, htext, hpayload.discovered,
      hpayload.committed, hpayload.skippedFiles, hpayload.skippedEntries, hpayload.failed]
    simp only [UInt64.ofNat_toNat]
    exact ⟨hsize.symm, hpayload.detail, hpayload.valid, trivial⟩

/-- What the encoder writes is the frame of the result with the detail it shows. -/
theorem encodeCommandResult_eq_ok_iff {bytes : List UInt8} {requestId : UInt64}
    {result : ApplicationCommandResult} {shown : Text}
    (hshown : encodeBoundedDetail result.detail = Utf8.encode shown)
    (hmark : shown.head? ≠ some byteOrderMark) :
    encodeCommandResult requestId result = .ok bytes ↔
      decodeCommandResult bytes = .ok (some (requestId, { result with detail := shown })) := by
  rw [encodeCommandResult, validateResult_then_iff, hshown, makeFrame_eq_ok_iff,
    decodeCommandResult_eq_some_iff]
  constructor
  · rintro ⟨hvalid, hheader, hid, hpayload⟩
    exact ⟨hheader, hid, (isResultPayload_iff (length_payload_le hheader)).2
      ⟨hpayload.symm, hmark, hvalid.withDetail shown⟩⟩
  · rintro ⟨hheader, hid, hpayload⟩
    exact ⟨hpayload.valid.withDetail result.detail, hheader, hid,
      ((isResultPayload_iff (length_payload_le hheader)).1 hpayload).1.symm⟩

/-! ## The contract of the codec -/

theorem exists_makeFrame {kind : FrameKind} {requestId : UInt64} {payload : List UInt8}
    (hid : requestId ≠ 0) (hsize : payload.length ≤ kMaximumPayloadSize) :
    ∃ bytes, makeFrame kind requestId payload = .ok bytes := by
  rw [makeFrame, if_neg hid, if_neg (Nat.not_lt.2 hsize)]
  exact ⟨_, rfl⟩

theorem exists_encodeCommandRequest {request : ApplicationCommandRequest}
    (hid : request.requestId ≠ 0) : ∃ bytes, encodeCommandRequest request = .ok bytes := by
  apply exists_makeFrame hid
  rw [List.length_append, LittleEndian.length_encode, LittleEndian.length_encode]
  decide

theorem exists_encodeCommandResult {requestId : UInt64} {result : ApplicationCommandResult}
    (hid : requestId ≠ 0) (hvalid : ValidResult result) :
    ∃ bytes, encodeCommandResult requestId result = .ok bytes := by
  obtain ⟨shown, hdetail, hshown⟩ := encodeBoundedDetail_spec result.detail
  have hbound := hshown.bounded
  have hsize : (resultFields result (encodeBoundedDetail result.detail).length ++
      encodeBoundedDetail result.detail).length ≤ kMaximumPayloadSize := by
    rw [List.length_append, length_resultFields, hdetail]
    rw [detailLimit] at hbound
    have hfixed : kResultFixedPayloadSize ≤ kMaximumPayloadSize := by decide
    omega
  obtain ⟨bytes, hmake⟩ := @exists_makeFrame .result requestId _ hid hsize
  refine ⟨bytes, ?_⟩
  rw [encodeCommandResult, validateResult_then_iff]
  exact ⟨hvalid, hmake⟩

/-- A strict front of a complete frame: the probe waits for the header, then for
the whole frame, and no decoder takes it for one. -/
structure FrontOf (bytes front : List UInt8) : Prop where
  beforeHeader : front.length < kHeaderSize → applicationCommandFrameSize front = .ok 0
  behindHeader : kHeaderSize ≤ front.length → applicationCommandFrameSize front = .ok bytes.length
  noRequest : ∀ request, decodeCommandRequest front ≠ .ok (some request)
  noResult : ∀ requestId result, decodeCommandResult front ≠ .ok (some (requestId, result))

/-- The size field of a front that holds the header is the one of the frame. -/
theorem field_of_isPrefix {front bytes : List UInt8} (hfront : front <+: bytes) {offset width : ℕ}
    (hfits : offset + width ≤ front.length) :
    field front offset width = field bytes offset width := by
  obtain ⟨rest, rfl⟩ := hfront
  rw [field, field, List.drop_append_of_le_length (by omega), List.take_append_of_le_length]
  rw [List.length_drop]
  omega

theorem IsFrame.frontOf {bytes front : List UInt8} {kind : FrameKind}
    (hframe : IsFrame bytes kind) (hfront : front <+: bytes) (hstrict : front ≠ bytes) :
    FrontOf bytes front := by
  have hshort : front.length < bytes.length := by
    apply Nat.lt_of_le_of_ne hfront.length_le
    exact fun hlength => hstrict (hfront.eq_of_length hlength)
  have hincomplete : ∀ other, ¬IsFrame front other := by
    intro other hother
    have hsize := hother.size
    rw [field_of_isPrefix hfront (by have := hother.header; omega), ← hframe.size] at hsize
    omega
  refine ⟨fun hheader => ?_, fun hheader => ?_, fun request hread => ?_,
    fun requestId result hread => ?_⟩
  · rw [applicationCommandFrameSize, if_pos hheader]
  · have hlength : 24 ≤ front.length := hheader
    have hmagic : front.take kMagic.length = kMagic := by
      have hfield := @field_of_isPrefix front bytes hfront 0 4 (by omega)
      rw [field, field, List.drop_zero, List.drop_zero] at hfield
      exact hfield.trans hframe.magic
    rw [applicationCommandFrameSize, if_neg (Nat.not_lt.2 hheader), if_neg (not_not.2 hmagic),
      readInteger_of_le (by omega), ok_bind, field_of_isPrefix hfront (by omega),
      if_neg (Nat.not_lt.2 hframe.payloadSize), hframe.size]
  · exact hincomplete _ (decodeCommandRequest_eq_some_iff.1 hread).1
  · exact hincomplete _ (decodeCommandResult_eq_some_iff.1 hread).1

/-- What both ends of the pipe rely on. -/
structure CodecContract : Prop where
  requestRoundTrip : ∀ request : ApplicationCommandRequest, request.requestId ≠ 0 →
    ∃ bytes, encodeCommandRequest request = .ok bytes ∧
      decodeCommandRequest bytes = .ok (some request)
  resultRoundTrip : ∀ (requestId : UInt64) (result : ApplicationCommandResult), requestId ≠ 0 →
    validateResult result = .ok () → result.detail.head? ≠ some byteOrderMark →
    ∃ bytes shown, encodeCommandResult requestId result = .ok bytes ∧
      decodeCommandResult bytes = .ok (some (requestId, { result with detail := shown })) ∧
      Shown result.detail shown
  requestCanonical : ∀ bytes request, decodeCommandRequest bytes = .ok (some request) →
    encodeCommandRequest request = .ok bytes
  resultCanonical : ∀ bytes requestId result,
    decodeCommandResult bytes = .ok (some (requestId, result)) →
    encodeCommandResult requestId result = .ok bytes
  requestFront : ∀ bytes request, decodeCommandRequest bytes = .ok (some request) →
    ∀ front, front <+: bytes → front ≠ bytes → FrontOf bytes front
  resultFront : ∀ bytes requestId result,
    decodeCommandResult bytes = .ok (some (requestId, result)) →
    ∀ front, front <+: bytes → front ≠ bytes → FrontOf bytes front
  requestAccepted : ∀ bytes, (∃ request, decodeCommandRequest bytes = .ok (some request)) ↔
    IsFrame bytes .request ∧ ∃ kind, IsRequestPayload (bytes.drop kHeaderSize) kind
  resultAccepted : ∀ bytes,
    (∃ requestId result, decodeCommandResult bytes = .ok (some (requestId, result))) ↔
    IsFrame bytes .result ∧ ∃ result, IsResultPayload (bytes.drop kHeaderSize) result

/-- A detail that is read fits into a frame, so it is written as it is. -/
theorem encodeBoundedDetail_of_read {payload : List UInt8} {result : ApplicationCommandResult}
    (hpayload : IsResultPayload payload result) (hbound : payload.length ≤ kMaximumPayloadSize) :
    encodeBoundedDetail result.detail = Utf8.encode result.detail := by
  rw [encodeBoundedDetail, if_pos]
  rw [hpayload.detail, List.length_drop, detailLimit]
  omega

theorem codecContract : CodecContract where
  requestRoundTrip := by
    intro request hid
    obtain ⟨bytes, hencode⟩ := exists_encodeCommandRequest hid
    exact ⟨bytes, hencode, decodeCommandRequest_eq_some_iff.2
      (encodeCommandRequest_eq_ok_iff.1 hencode)⟩
  resultRoundTrip := by
    intro requestId result hid hvalid hmark
    obtain ⟨shown, hdetail, hshown⟩ := encodeBoundedDetail_spec result.detail
    obtain ⟨bytes, hencode⟩ :=
      exists_encodeCommandResult hid ((validateResult_eq_ok_iff result).1 hvalid)
    exact ⟨bytes, shown, hencode,
      (encodeCommandResult_eq_ok_iff hdetail (hshown.head hmark)).1 hencode, hshown⟩
  requestCanonical := by
    intro bytes request hdecode
    exact encodeCommandRequest_eq_ok_iff.2 (decodeCommandRequest_eq_some_iff.1 hdecode)
  resultCanonical := by
    intro bytes requestId result hdecode
    obtain ⟨hheader, hid, hpayload⟩ := decodeCommandResult_eq_some_iff.1 hdecode
    have hdetail := encodeBoundedDetail_of_read hpayload (length_payload_le hheader)
    exact (encodeCommandResult_eq_ok_iff hdetail hpayload.noMark).2 hdecode
  requestFront := by
    intro bytes request hdecode front
    exact (decodeCommandRequest_eq_some_iff.1 hdecode).1.frontOf
  resultFront := by
    intro bytes requestId result hdecode front
    exact (decodeCommandResult_eq_some_iff.1 hdecode).1.frontOf
  requestAccepted := by
    intro bytes
    constructor
    · rintro ⟨request, hdecode⟩
      obtain ⟨hheader, -, hpayload⟩ := decodeCommandRequest_eq_some_iff.1 hdecode
      exact ⟨hheader, request.kind, hpayload⟩
    · rintro ⟨hheader, kind, hpayload⟩
      exact ⟨⟨kind, _⟩, decodeCommandRequest_eq_some_iff.2 ⟨hheader, rfl, hpayload⟩⟩
  resultAccepted := by
    intro bytes
    constructor
    · rintro ⟨requestId, result, hdecode⟩
      obtain ⟨hheader, -, hpayload⟩ := decodeCommandResult_eq_some_iff.1 hdecode
      exact ⟨hheader, result, hpayload⟩
    · rintro ⟨hheader, result, hpayload⟩
      exact ⟨_, result, decodeCommandResult_eq_some_iff.2 ⟨hheader, rfl, hpayload⟩⟩

end ApplicationCommand

end UwfManager
