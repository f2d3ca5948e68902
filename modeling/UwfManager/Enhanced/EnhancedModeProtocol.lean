import UwfManager.Library.LittleEndian
import UwfManager.Shared.Text

/-!
# The control frame of enhanced mode

One byte for the control and eight for the number of the request, the least
significant first.
-/

namespace UwfManager

inductive EnhancedAgentControl where
  | preshutdownCommitHandled
  | preshutdownCommitRequired
  deriving DecidableEq, Repr

namespace EnhancedAgentControl

def toByte : EnhancedAgentControl → UInt8
  | preshutdownCommitHandled => 1
  | preshutdownCommitRequired => 2

def ofByte? (byte : UInt8) : Option EnhancedAgentControl :=
  if byte = 1 then some preshutdownCommitHandled
  else if byte = 2 then some preshutdownCommitRequired
  else none

@[simp]
theorem ofByte?_toByte (control : EnhancedAgentControl) : ofByte? control.toByte = some control := by
  cases control <;> rfl

end EnhancedAgentControl

structure EnhancedAgentControlMessage where
  control : EnhancedAgentControl := .preshutdownCommitRequired
  requestId : UInt64 := 0
  deriving DecidableEq, Repr

def kEnhancedAgentControlFrameSize : ℕ := 1 + 8

/-- A whole frame: the pipe hands over no part of one. -/
abbrev EnhancedAgentControlFrame : Type :=
  { bytes : List UInt8 // bytes.length = kEnhancedAgentControlFrameSize }

def controlFrame (message : EnhancedAgentControlMessage) : EnhancedAgentControlFrame :=
  ⟨message.control.toByte :: LittleEndian.encode 8 message.requestId.toNat, by
    rw [List.length_cons, LittleEndian.length_encode, kEnhancedAgentControlFrameSize]⟩

/-- The control is one of the two values of its type, so only the number can be refused. -/
def encodeEnhancedAgentControl (message : EnhancedAgentControlMessage) :
    Except Text EnhancedAgentControlFrame :=
  if message.requestId = 0 then
    .error "enhanced agent control request ID cannot be zero".toList
  else .ok (controlFrame message)

def decodeEnhancedAgentControl (frame : EnhancedAgentControlFrame) :
    Option EnhancedAgentControlMessage :=
  match EnhancedAgentControl.ofByte? (frame.1.headD 0) with
  | none => none
  | some control =>
      let requestId := UInt64.ofNat (LittleEndian.decode frame.1.tail)
      if requestId = 0 then none else some ⟨control, requestId⟩

/-! ## Round trips -/

theorem encodeEnhancedAgentControl_eq_ok_iff {message : EnhancedAgentControlMessage}
    {frame : EnhancedAgentControlFrame} :
    encodeEnhancedAgentControl message = .ok frame ↔
      message.requestId ≠ 0 ∧ frame = controlFrame message := by
  rw [encodeEnhancedAgentControl]
  split_ifs with hzero
  · simp [hzero]
  · simp [hzero, eq_comm]

/-- What was encoded is read back. -/
theorem decode_encodeEnhancedAgentControl {message : EnhancedAgentControlMessage}
    {frame : EnhancedAgentControlFrame}
    (hencode : encodeEnhancedAgentControl message = .ok frame) :
    decodeEnhancedAgentControl frame = some message := by
  obtain ⟨hid, rfl⟩ := encodeEnhancedAgentControl_eq_ok_iff.1 hencode
  have hlow : LittleEndian.decode (LittleEndian.encode 8 message.requestId.toNat) =
      message.requestId.toNat := LittleEndian.decode_encode message.requestId.toNat_lt
  rw [decodeEnhancedAgentControl]
  simp only [controlFrame, List.headD_cons, List.tail_cons, EnhancedAgentControl.ofByte?_toByte,
    hlow, UInt64.ofNat_toNat]
  rw [if_neg hid]

/-- A frame that is read is the only one of its message. -/
theorem encode_decodeEnhancedAgentControl {message : EnhancedAgentControlMessage}
    {frame : EnhancedAgentControlFrame}
    (hdecode : decodeEnhancedAgentControl frame = some message) :
    encodeEnhancedAgentControl message = .ok frame := by
  obtain ⟨bytes, hlength⟩ := frame
  cases bytes with
  | nil => simp [kEnhancedAgentControlFrameSize] at hlength
  | cons byte rest =>
      have hrest : rest.length = 8 := by
        rwa [List.length_cons, kEnhancedAgentControlFrameSize, Nat.add_comm,
          Nat.add_left_cancel_iff] at hlength
      have hlow : LittleEndian.decode rest < 2 ^ 64 := by
        have hlt := LittleEndian.decode_lt rest
        rwa [hrest] at hlt
      have hbyte : ∀ control, EnhancedAgentControl.ofByte? byte = some control →
          control.toByte = byte := by
        intro control hcontrol
        rw [EnhancedAgentControl.ofByte?] at hcontrol
        split_ifs at hcontrol with hone htwo
        · rw [← Option.some.inj hcontrol, hone]
          rfl
        · rw [← Option.some.inj hcontrol, htwo]
          rfl
      rw [decodeEnhancedAgentControl] at hdecode
      dsimp only [List.headD_cons, List.tail_cons] at hdecode
      revert hdecode
      cases hcontrol : EnhancedAgentControl.ofByte? byte with
      | none => exact fun hdecode => absurd hdecode (by simp)
      | some control =>
          dsimp only
          split_ifs with hzero
          · exact fun hdecode => absurd hdecode (by simp)
          · intro hdecode
            obtain rfl := Option.some.inj hdecode
            have hnumber : (UInt64.ofNat (LittleEndian.decode rest)).toNat =
                LittleEndian.decode rest := by
              rw [UInt64.toNat_ofNat']
              exact Nat.mod_eq_of_lt hlow
            have hbytes : LittleEndian.encode 8 (LittleEndian.decode rest) = rest := by
              conv_rhs => rw [← LittleEndian.encode_decode rest, hrest]
            rw [encodeEnhancedAgentControl_eq_ok_iff]
            refine ⟨hzero, Subtype.ext ?_⟩
            change byte :: rest = control.toByte :: LittleEndian.encode 8 _
            rw [hnumber, hbytes, hbyte control hcontrol]

end UwfManager
