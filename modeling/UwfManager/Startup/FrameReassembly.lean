import UwfManager.Startup.ApplicationCommand

/-!
# The readers of the application command pipe

A pipe delivers the bytes of a frame in pieces.  The client reads until the frame is complete;
the running instance collects the bytes of each socket and takes the request from them.  Both
ask the size probe how many bytes to wait for.  The file proves that they agree with the
decoder, however the bytes are cut.
-/

namespace UwfManager

namespace ApplicationCommand

/-! ## The client -/

/-- The variables of the reading loop. -/
structure FrameRead where
  bytes : List UInt8 := []
  expectedSize : ℕ := 0
  deriving DecidableEq

inductive ReadProgress where
  | waiting (read : FrameRead)
  | returned (frame : Option (List UInt8))
  | thrown (error : ApplicationCommandProtocolError)
  deriving DecidableEq

/-- One round of the loop, with what `ReadFile` has read. -/
def readChunk (read : FrameRead) (chunk : List UInt8) : ReadProgress :=
  if chunk.isEmpty then .returned none
  else
    let bytes := read.bytes ++ chunk
    match if read.expectedSize = 0 then applicationCommandFrameSize bytes
        else .ok read.expectedSize with
    | .error error => .thrown error
    | .ok expectedSize =>
        if expectedSize ≠ 0 ∧ bytes.length ≥ expectedSize then
          if bytes.length ≠ expectedSize then .returned none else .returned (some bytes)
        else .waiting ⟨bytes, expectedSize⟩

/-- The loop over what the pipe delivers; it waits when nothing has come yet. -/
def readFrame : FrameRead → List (List UInt8) → ReadProgress
  | read, [] => .waiting read
  | read, chunk :: rest =>
      match readChunk read chunk with
      | .waiting after => readFrame after rest
      | ended => ended

/-! ## The running instance -/

/-- The entry of a socket in the buffers, which is removed when its request is accepted or the
socket is aborted, and the requests that were accepted from it. -/
structure SocketState where
  buffer : Option (List UInt8) := some []
  accepted : List ApplicationCommandRequest := []
  aborted : Bool := false
  deriving DecidableEq

def processSocket (socket : SocketState) (chunk : List UInt8) : SocketState :=
  match socket.buffer with
  | none => socket
  | some buffered =>
      let bytes := buffered ++ chunk
      match applicationCommandFrameSize bytes with
      | .error _ => { socket with buffer := none, aborted := true }
      | .ok expectedSize =>
          if expectedSize = 0 ∨ bytes.length < expectedSize then
            { socket with buffer := some bytes }
          else
            match decodeCommandRequest bytes with
            | .error _ => { socket with buffer := none, aborted := true }
            | .ok none => { socket with buffer := some bytes }
            | .ok (some request) =>
                { socket with buffer := none, accepted := socket.accepted ++ [request] }

/-- What the socket has delivered so far, read by read. -/
def receive (chunks : List (List UInt8)) : SocketState := chunks.foldl processSocket {}

theorem receive_append (front rest : List (List UInt8)) :
    receive (front ++ rest) = rest.foldl processSocket (receive front) :=
  List.foldl_append

/-! ## Complete frames -/

theorem IsFrame.frameSize {bytes : List UInt8} {kind : FrameKind} (hframe : IsFrame bytes kind) :
    applicationCommandFrameSize bytes = .ok bytes.length := by
  have hlength := hframe.header
  have hheader : ¬bytes.length < kHeaderSize := Nat.not_lt.2 hlength
  rw [applicationCommandFrameSize, if_neg hheader, if_neg (not_not.2 hframe.magic),
    readInteger_of_le (by omega), ok_bind, if_neg (Nat.not_lt.2 hframe.payloadSize), hframe.size]

/-- The probe asks for more bytes until the frame is complete. -/
theorem FrontOf.frameSize {bytes front : List UInt8} (hfront : FrontOf bytes front) :
    ∃ expectedSize, applicationCommandFrameSize front = .ok expectedSize ∧
      (expectedSize = 0 ∨ expectedSize = bytes.length) := by
  by_cases hheader : front.length < kHeaderSize
  · exact ⟨0, hfront.beforeHeader hheader, .inl rfl⟩
  · exact ⟨bytes.length, hfront.behindHeader (Nat.not_lt.mp hheader), .inr rfl⟩

/-- The reads before the last one of a frame deliver a strict front of it. -/
theorem flatten_strict {bytes : List UInt8} {front rest : List (List UInt8)}
    (hbytes : (front ++ rest).flatten = bytes) (hchunks : ∀ chunk ∈ rest, chunk ≠ [])
    (hrest : rest ≠ []) : front.flatten <+: bytes ∧ front.flatten.length < bytes.length := by
  rw [List.flatten_append] at hbytes
  refine ⟨⟨rest.flatten, hbytes⟩, ?_⟩
  obtain ⟨chunk, later, rfl⟩ := List.exists_cons_of_ne_nil hrest
  have hchunk := List.length_pos_iff.mpr (hchunks chunk List.mem_cons_self)
  rw [← hbytes, List.flatten_cons, List.length_append, List.length_append]
  omega

/-! ## Reading a frame -/

section Client

variable {bytes : List UInt8} {kind : FrameKind}

/-- Part of the frame was read, and its size is known or still asked for. -/
structure Partial (bytes : List UInt8) (read : FrameRead) : Prop where
  expectedSize : read.expectedSize = 0 ∨ read.expectedSize = bytes.length

/-- A read that completes the frame returns it, one that does not waits on. -/
theorem readChunk_frame (hframe : IsFrame bytes kind) {read : FrameRead}
    (hread : Partial bytes read) {chunk : List UInt8} (hchunk : chunk ≠ [])
    (hleading : read.bytes ++ chunk <+: bytes) :
    (read.bytes ++ chunk = bytes → readChunk read chunk = .returned (some bytes)) ∧
      ((read.bytes ++ chunk).length < bytes.length →
        ∃ after, readChunk read chunk = .waiting after ∧ after.bytes = read.bytes ++ chunk ∧
          Partial bytes after) := by
  have hnonempty : ¬chunk.isEmpty = true := fun hempty => hchunk (List.isEmpty_iff.mp hempty)
  have hpositive : bytes.length ≠ 0 := by
    have hheader := hframe.header
    omega
  rw [readChunk, if_neg hnonempty]
  dsimp only
  constructor
  · intro hall
    have hexpected : (if read.expectedSize = 0 then applicationCommandFrameSize (read.bytes ++ chunk)
        else .ok read.expectedSize) = .ok bytes.length := by
      rw [hall, hframe.frameSize]
      split_ifs with hzero
      · rfl
      · rw [hread.expectedSize.resolve_left hzero]
    rw [hexpected, hall]
    dsimp only
    rw [if_pos ⟨hpositive, le_refl _⟩, if_neg (not_not.mpr rfl)]
  · intro hshort
    have hstrict : read.bytes ++ chunk ≠ bytes := fun hall => by
      rw [hall] at hshort
      exact lt_irrefl _ hshort
    obtain ⟨expectedSize, hsize, hknown⟩ := (hframe.frontOf hleading hstrict).frameSize
    have hexpected : ∃ expectedSize,
        (if read.expectedSize = 0 then applicationCommandFrameSize (read.bytes ++ chunk)
          else .ok read.expectedSize) = .ok expectedSize ∧
        (expectedSize = 0 ∨ expectedSize = bytes.length) := by
      split_ifs with hzero
      · exact ⟨expectedSize, hsize, hknown⟩
      · exact ⟨read.expectedSize, rfl, hread.expectedSize⟩
    obtain ⟨expected, hexpected, hknown⟩ := hexpected
    rw [hexpected]
    dsimp only
    rw [if_neg]
    · exact ⟨_, rfl, rfl, ⟨hknown⟩⟩
    · rintro ⟨hne, hle⟩
      rw [hknown.resolve_left hne] at hle
      omega

theorem readFrame_append (read : FrameRead) (front rest : List (List UInt8)) :
    readFrame read (front ++ rest) =
      match readFrame read front with
      | .waiting after => readFrame after rest
      | ended => ended := by
  induction front generalizing read with
  | nil => rfl
  | cons chunk front ih =>
      rw [List.cons_append, readFrame, readFrame]
      cases readChunk read chunk with
      | waiting after => exact ih after
      | returned frame => rfl
      | thrown error => rfl

/-- Reads that do not complete the frame leave the client waiting. -/
theorem readFrame_front (hframe : IsFrame bytes kind) {front rest : List (List UInt8)}
    (hbytes : (front ++ rest).flatten = bytes) (hchunks : ∀ chunk ∈ front ++ rest, chunk ≠ [])
    (hrest : rest ≠ []) :
    ∃ read, readFrame {} front = .waiting read ∧ read.bytes = front.flatten ∧
      Partial bytes read := by
  induction front using List.reverseRecOn generalizing rest with
  | nil => exact ⟨{}, rfl, rfl, ⟨.inl rfl⟩⟩
  | append_singleton front chunk ih =>
      rw [List.append_assoc] at hbytes hchunks
      obtain ⟨read, hread, hflatten, hpartial⟩ := ih hbytes hchunks nofun
      have hchunk : chunk ≠ [] :=
        hchunks chunk (List.mem_append_right _ List.mem_cons_self)
      have hsplit : ((front ++ [chunk]) ++ rest).flatten = bytes := by
        rw [List.append_assoc]
        exact hbytes
      obtain ⟨hleading, hshort⟩ := flatten_strict hsplit
        (fun other hother => hchunks other
          (List.mem_append_right _ (List.mem_append_right _ hother))) hrest
      rw [List.flatten_append, List.flatten_singleton, ← hflatten] at hleading hshort ⊢
      obtain ⟨after, hafter, hbytes', hpartial'⟩ :=
        (readChunk_frame hframe hpartial hchunk hleading).2 hshort
      refine ⟨after, ?_, hbytes', hpartial'⟩
      rw [readFrame_append, hread]
      dsimp only
      rw [readFrame, hafter]
      rfl

/-- The read that completes the frame returns it, and nothing is read after it. -/
theorem readFrame_whole (hframe : IsFrame bytes kind) {chunks : List (List UInt8)}
    (hbytes : chunks.flatten = bytes) (hchunks : ∀ chunk ∈ chunks, chunk ≠ [])
    (later : List (List UInt8)) : readFrame {} (chunks ++ later) = .returned (some bytes) := by
  rcases List.eq_nil_or_concat chunks with rfl | ⟨front, chunk, rfl⟩
  · have hheader := hframe.header
    rw [← hbytes] at hheader
    cases hheader
  · rw [List.concat_eq_append] at hbytes hchunks ⊢
    obtain ⟨read, hread, hflatten, hpartial⟩ := readFrame_front hframe hbytes hchunks nofun
    have hall : read.bytes ++ chunk = bytes := by
      rw [hflatten, ← hbytes, List.flatten_append, List.flatten_singleton]
    have hreturned := (readChunk_frame hframe hpartial
      (hchunks chunk (List.mem_append_right _ List.mem_cons_self)) ⟨[], (List.append_nil _).trans hall⟩).1 hall
    rw [List.append_assoc, readFrame_append, hread]
    dsimp only
    rw [List.singleton_append, readFrame, hreturned]

/-- How a round ends. -/
inductive ChunkRead (read : FrameRead) (chunk : List UInt8) : ReadProgress → Prop
  | refused : ChunkRead read chunk (.returned none)
  | thrown (error : ApplicationCommandProtocolError) : ChunkRead read chunk (.thrown error)
  | complete : ChunkRead read chunk (.returned (some (read.bytes ++ chunk)))
  | waiting (expectedSize : ℕ) : ChunkRead read chunk (.waiting ⟨read.bytes ++ chunk, expectedSize⟩)

theorem readChunk_chunkRead (read : FrameRead) (chunk : List UInt8) :
    ChunkRead read chunk (readChunk read chunk) := by
  rw [readChunk]
  by_cases hempty : chunk.isEmpty = true
  · rw [if_pos hempty]
    exact .refused
  · rw [if_neg hempty]
    dsimp only
    generalize (if read.expectedSize = 0 then applicationCommandFrameSize (read.bytes ++ chunk)
      else .ok read.expectedSize) = probed
    cases probed with
    | error error => exact .thrown error
    | ok expectedSize =>
        dsimp only
        split_ifs
        · exact .refused
        · exact .complete
        · exact .waiting expectedSize

/-- What is returned are all the bytes read so far. -/
theorem readFrame_returned {read : FrameRead} {chunks : List (List UInt8)}
    (hreturned : readFrame read chunks = .returned (some bytes)) :
    ∃ front rest, chunks = front ++ rest ∧ bytes = read.bytes ++ front.flatten := by
  induction chunks generalizing read with
  | nil => cases hreturned
  | cons chunk rest ih =>
      have hchunk := readChunk_chunkRead read chunk
      rw [readFrame] at hreturned
      generalize readChunk read chunk = progress at hchunk hreturned
      cases hchunk with
      | refused => cases hreturned
      | thrown error => cases hreturned
      | complete =>
          cases hreturned
          exact ⟨[chunk], rest, rfl, congrArg (read.bytes ++ ·) List.flatten_singleton.symm⟩
      | waiting expectedSize =>
          obtain ⟨front, later, rfl, rfl⟩ := ih hreturned
          exact ⟨chunk :: front, later, rfl, by rw [List.flatten_cons, List.append_assoc]⟩

end Client

/-! ## Receiving a request -/

/-- What a socket can have become of these reads: it collects, it has accepted the request that
the first of them make up, or it was aborted. -/
inductive Received (chunks : List (List UInt8)) : SocketState → Prop
  | collecting : Received chunks ⟨some chunks.flatten, [], false⟩
  | accepted {front rest : List (List UInt8)} {request : ApplicationCommandRequest}
      (hchunks : chunks = front ++ rest)
      (hrequest : decodeCommandRequest front.flatten = .ok (some request)) :
      Received chunks ⟨none, [request], false⟩
  | aborted : Received chunks ⟨none, [], true⟩

theorem processSocket_received {chunks : List (List UInt8)} {socket : SocketState}
    (hreceived : Received chunks socket) (chunk : List UInt8) :
    Received (chunks ++ [chunk]) (processSocket socket chunk) := by
  cases hreceived with
  | collecting =>
      have hflatten : chunks.flatten ++ chunk = (chunks ++ [chunk]).flatten := by
        rw [List.flatten_append, List.flatten_singleton]
      rw [processSocket]
      dsimp only
      rw [hflatten]
      cases applicationCommandFrameSize (chunks ++ [chunk]).flatten with
      | error error => exact .aborted
      | ok expectedSize =>
          dsimp only
          split_ifs
          · exact .collecting
          · cases hdecode : decodeCommandRequest (chunks ++ [chunk]).flatten with
            | error error => exact .aborted
            | ok request =>
                cases request with
                | none => exact .collecting
                | some request => exact .accepted (List.append_nil _).symm hdecode
  | @accepted front rest request hchunks hrequest =>
      have hmore : chunks ++ [chunk] = front ++ (rest ++ [chunk]) := by
        rw [hchunks, List.append_assoc]
      exact .accepted hmore hrequest
  | aborted => exact .aborted

theorem receive_received (chunks : List (List UInt8)) : Received chunks (receive chunks) := by
  induction chunks using List.reverseRecOn with
  | nil => exact .collecting
  | append_singleton front chunk ih =>
      rw [receive_append]
      exact processSocket_received ih chunk

/-- A socket that is done takes nothing more. -/
theorem foldl_processSocket_done {socket : SocketState} (hdone : socket.buffer = none)
    (later : List (List UInt8)) : later.foldl processSocket socket = socket := by
  induction later with
  | nil => rfl
  | cons chunk rest ih =>
      have hsame : processSocket socket chunk = socket := by
        rw [processSocket, hdone]
      rw [List.foldl_cons, hsame]
      exact ih

/-- Reads that do not complete the frame are collected. -/
theorem receive_front {bytes : List UInt8} {kind : FrameKind} (hframe : IsFrame bytes kind)
    {front : List (List UInt8)} (hleading : front.flatten <+: bytes)
    (hshort : front.flatten.length < bytes.length) :
    receive front = ⟨some front.flatten, [], false⟩ := by
  induction front using List.reverseRecOn with
  | nil => rfl
  | append_singleton front chunk ih =>
      rw [List.flatten_append, List.flatten_singleton] at hleading hshort
      have hstrict : front.flatten ++ chunk ≠ bytes := fun hall => by
        rw [hall] at hshort
        exact lt_irrefl _ hshort
      obtain ⟨expectedSize, hsize, hknown⟩ := (hframe.frontOf hleading hstrict).frameSize
      have hbefore : front.flatten.length < bytes.length := by
        rw [List.length_append] at hshort
        omega
      have hwait : expectedSize = 0 ∨ (front.flatten ++ chunk).length < expectedSize := by
        rcases hknown with hzero | hwhole
        · exact .inl hzero
        · exact .inr (hwhole ▸ hshort)
      rw [receive_append, ih ((List.prefix_append _ _).trans hleading) hbefore, List.foldl_cons,
        List.foldl_nil, processSocket]
      dsimp only
      rw [hsize]
      dsimp only
      rw [if_pos hwait, List.flatten_append, List.flatten_singleton]

/-- The read that completes a request has it accepted, once. -/
theorem receive_whole {chunks later : List (List UInt8)} {request : ApplicationCommandRequest}
    (hrequest : decodeCommandRequest chunks.flatten = .ok (some request))
    (hchunks : ∀ chunk ∈ chunks, chunk ≠ []) :
    receive (chunks ++ later) = ⟨none, [request], false⟩ := by
  have hframe := (decodeCommandRequest_eq_some_iff.1 hrequest).1
  rcases List.eq_nil_or_concat chunks with rfl | ⟨front, chunk, rfl⟩
  · have hheader := hframe.header
    cases hheader
  · rw [List.concat_eq_append] at hrequest hchunks hframe ⊢
    obtain ⟨hleading, hshort⟩ := flatten_strict rfl
      (fun other hother => hchunks other (List.mem_append_right front hother))
      (List.cons_ne_nil chunk [])
    have hdone : receive (front ++ [chunk]) = ⟨none, [request], false⟩ := by
      have hflatten : front.flatten ++ chunk = (front ++ [chunk]).flatten := by
        rw [List.flatten_append, List.flatten_singleton]
      have hready : ¬((front ++ [chunk]).flatten.length = 0 ∨
          (front ++ [chunk]).flatten.length < (front ++ [chunk]).flatten.length) := by
        have hheader := hframe.header
        omega
      rw [receive_append, receive_front hframe hleading hshort, List.foldl_cons, List.foldl_nil,
        processSocket]
      dsimp only
      rw [hflatten, hframe.frameSize]
      dsimp only
      rw [if_neg hready, hrequest]
      rfl
    rw [receive_append, hdone]
    exact foldl_processSocket_done rfl later

/-! ## The contract of the readers -/

/-- The client gets this frame: it waits before the last of these reads and returns the frame
after it, whatever follows. -/
structure ReadsFrame (chunks : List (List UInt8)) : Prop where
  waits : ∀ front rest, chunks = front ++ rest → rest ≠ [] →
    ∃ read, readFrame {} front = .waiting read
  returns : ∀ later, readFrame {} (chunks ++ later) = .returned (some chunks.flatten)

/-- The instance accepts this request: none before the last of these reads, and this one alone
after it, whatever follows. -/
structure AcceptsRequest (chunks : List (List UInt8)) (request : ApplicationCommandRequest) :
    Prop where
  waits : ∀ front rest, chunks = front ++ rest → rest ≠ [] → (receive front).accepted = []
  accepts : ∀ later, (receive (chunks ++ later)).accepted = [request]

/-- However the bytes of a frame are cut, each reader delivers the frame once, with its last byte;
and whatever the bytes are, what a reader accepts is a whole frame that the decoder accepts. -/
structure Reassembles (chunks : List (List UInt8)) : Prop where
  read : ∀ frame, decodeFrame chunks.flatten = .ok (some frame) →
    (∀ chunk ∈ chunks, chunk ≠ []) → ReadsFrame chunks
  accepted : ∀ request, decodeCommandRequest chunks.flatten = .ok (some request) →
    (∀ chunk ∈ chunks, chunk ≠ []) → AcceptsRequest chunks request
  readOnly : ∀ bytes, readFrame {} chunks = .returned (some bytes) →
    (∃ front rest, chunks = front ++ rest ∧ bytes = front.flatten) ∧
      ∀ requestId result, decodeCommandResult bytes = .ok (some (requestId, result)) →
        ∃ frame, decodeFrame bytes = .ok (some frame)
  acceptedOnly : ∀ request ∈ (receive chunks).accepted, ∃ front rest, chunks = front ++ rest ∧
    decodeCommandRequest front.flatten = .ok (some request) ∧
      ∃ frame, decodeFrame front.flatten = .ok (some frame)

theorem IsFrame.exists_decodeFrame {bytes : List UInt8} {kind : FrameKind}
    (hframe : IsFrame bytes kind) : ∃ frame, decodeFrame bytes = .ok (some frame) :=
  ⟨⟨kind, _, _⟩, decodeFrame_eq_some_iff.2 ⟨hframe, rfl, rfl⟩⟩

theorem frame_reassembly (chunks : List (List UInt8)) : Reassembles chunks where
  read frame hdecode hchunks := by
    have hframe := (decodeFrame_eq_some_iff.1 hdecode).1
    constructor
    · intro front rest hsplit hrest
      subst hsplit
      obtain ⟨read, hread, -⟩ := readFrame_front hframe rfl hchunks hrest
      exact ⟨read, hread⟩
    · exact readFrame_whole hframe rfl hchunks
  accepted request hrequest hchunks := by
    have hframe := (decodeCommandRequest_eq_some_iff.1 hrequest).1
    constructor
    · intro front rest hsplit hrest
      subst hsplit
      obtain ⟨hleading, hshort⟩ := flatten_strict rfl
        (fun chunk hchunk => hchunks chunk (List.mem_append_right front hchunk)) hrest
      rw [receive_front hframe hleading hshort]
    · intro later
      rw [receive_whole hrequest hchunks]
  readOnly bytes hreturned := by
    constructor
    · exact readFrame_returned hreturned
    · intro requestId result hresult
      exact (decodeCommandResult_eq_some_iff.1 hresult).1.exists_decodeFrame
  acceptedOnly request haccepted := by
    have hreceived := receive_received chunks
    generalize receive chunks = socket at hreceived haccepted
    cases hreceived with
    | collecting => cases haccepted
    | @accepted front rest other hchunks hrequest =>
        rw [List.mem_singleton.mp haccepted]
        exact ⟨front, rest, hchunks, hrequest,
          (decodeCommandRequest_eq_some_iff.1 hrequest).1.exists_decodeFrame⟩
    | aborted => cases haccepted

/-- A request to show the window, cut within its header. -/
theorem frame_reassembly_activate :
    AcceptsRequest
      [[0x55, 0x57, 0x46, 0x43, 1, 0, 1, 0, 7, 0],
        [0, 0, 0, 0, 0, 0, 4, 0, 0, 0, 0, 0, 0, 0, 1, 0], [0, 0]] ⟨.activate, 7⟩ :=
  (frame_reassembly _).accepted _ (by decide +kernel) (by decide)

end ApplicationCommand

end UwfManager
