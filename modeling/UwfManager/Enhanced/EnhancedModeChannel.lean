import UwfManager.Enhanced.EnhancedModeProtocol
import UwfManager.Library.GuardedRun

/-!
# Controls between the agent and the service

The agent sends one control at a time and waits for its echo.  A wait that timed
out leaves its frame and its echo in the pipe, and a connection may be lost at any
moment, so the model lets either side act in any order.
-/

namespace UwfManager

/-- A control in the order the agent made them. -/
structure ControlRequest where
  number : ℕ
  message : EnhancedAgentControlMessage
  deriving DecidableEq, Repr

/-- A frame in a pipe and the request it was made for. -/
structure ControlFrame where
  request : ControlRequest
  frame : EnhancedAgentControlFrame
  encoded : encodeEnhancedAgentControl request.message = .ok frame

namespace ControlFrame

def make (request : ControlRequest) : Except Text ControlFrame :=
  match h : encodeEnhancedAgentControl request.message with
  | .error refused => .error refused
  | .ok frame => .ok ⟨request, frame, h⟩

theorem make_of_ne_zero {request : ControlRequest} (hid : request.message.requestId ≠ 0) :
    ∃ frame, make request = .ok frame ∧ frame.request = request := by
  have hencode := encodeEnhancedAgentControl_eq_ok_iff.2 ⟨hid, rfl⟩
  refine ⟨⟨request, _, hencode⟩, ?_, rfl⟩
  rw [make]
  split
  · next refused hrefused => simp [hencode] at hrefused
  · next frame hframe =>
      rw [hencode] at hframe
      congr 2
      exact (Except.ok.inj hframe).symm

theorem decode_frame (frame : ControlFrame) :
    decodeEnhancedAgentControl frame.frame = some frame.request.message :=
  decode_encodeEnhancedAgentControl frame.encoded

end ControlFrame

/-! ## The agent -/

/-- The members both threads of the agent share; connections are numbered, and the
acknowledgement carries the number of its request. -/
structure ControlChannel where
  pipe : Option ℕ := none
  generation : UInt64 := 0
  nextRequestId : UInt64 := 1
  lastAcknowledgement : Option ControlRequest := none

/-- Zero is left out when the number wraps. -/
def requestIdAfter (requestId : UInt64) : UInt64 :=
  if requestId.toNat = 2 ^ 64 - 1 then 1 else requestId + 1

/-- A `sendControl` that has not returned. -/
structure PendingControl where
  frame : ControlFrame
  generation : UInt64
  connection : ℕ
  written : Bool := false

/-- What a `sendControl` that made a request ended with, and the acknowledgement it saw. -/
structure ControlResult where
  request : ControlRequest
  acknowledgement : Option ControlRequest := none
  acknowledged : Bool := false
  deriving DecidableEq

/-! ## The service -/

/-- Where the service is in the loop over one connection. -/
inductive Serving where
  | reading
  | handling (frame : ControlFrame)
  | echoing (frame : ControlFrame)

namespace Serving

def held : Serving → List ControlRequest
  | reading => []
  | handling frame => [frame.request]
  | echoing frame => [frame.request]

def unapplied : Serving → List ControlRequest
  | handling frame => [frame.request]
  | _ => []

def echoed : Serving → List ControlRequest
  | echoing frame => [frame.request]
  | _ => []

end Serving

structure ControlService where
  served : ℕ := 0
  serving : Serving := .reading
  preshutdownSkipDeadline : Option ℕ := none

/-- Five minutes, in milliseconds. -/
def kPreshutdownSkipLifetime : ℕ := 5 * 60 * 1000

def applyPreshutdownControl (now : ℕ) : EnhancedAgentControl → Option ℕ
  | .preshutdownCommitHandled => some (now + kPreshutdownSkipLifetime)
  | .preshutdownCommitRequired => none

def consumePreshutdownCommitHandled (now : ℕ) : Option ℕ → Bool × Option ℕ
  | none => (false, none)
  | some deadline => (decide (now ≤ deadline), none)

/-! ## The system -/

inductive PipeWrite where
  | completed
  | failed (delivered : Bool)
  deriving DecidableEq, Repr

/-- `history` has every request made, `applied` those the service has acted on and
`answered` one more than the last one acknowledged on the current connection. -/
structure ControlWorld where
  agent : ControlChannel := {}
  pending : Option PendingControl := none
  service : ControlService := {}
  requests : ℕ → List ControlFrame := fun _ => []
  echoes : ℕ → List ControlFrame := fun _ => []
  published : ℕ := 0
  history : List EnhancedAgentControlMessage := []
  answered : ℕ := 0
  applied : List ControlRequest := []
  results : List ControlResult := []

inductive ControlAction where
  | sendControl (control : EnhancedAgentControl)
  | writeRequest (outcome : PipeWrite)
  | wake (timedOut : Bool)
  | agentConnect (connection : ℕ)
  | agentDisconnect
  | agentRead
  | serviceRead
  | serviceApply (now : ℕ)
  | serviceEcho (outcome : PipeWrite)
  | serviceDrop
  | pipeLost (connection : ℕ)
  | preshutdown (now : ℕ)

namespace ControlWorld

def push (queues : ℕ → List ControlFrame) (connection : ℕ) (frame : ControlFrame) :
    ℕ → List ControlFrame :=
  Function.update queues connection (queues connection ++ [frame])

/-- Ends the pending `sendControl`. -/
def finish (pending : PendingControl) (acknowledged : Bool) (world : ControlWorld) : ControlWorld :=
  { world with
    pending := none
    results := world.results ++
      [⟨pending.frame.request, world.agent.lastAcknowledgement, acknowledged⟩] }

/-- Up to the write.  A `sendControl` before it holds `requestMutex`; without a pipe, or
when its handle cannot be duplicated, nothing changes. -/
def sendControl (control : EnhancedAgentControl) (world : ControlWorld) : ControlWorld :=
  match world.pending, world.agent.pipe with
  | none, some connection =>
      let request : ControlRequest :=
        ⟨world.history.length, ⟨control, world.agent.nextRequestId⟩⟩
      let agent := { world.agent with
        nextRequestId := requestIdAfter world.agent.nextRequestId }
      let made := { world with agent := agent, history := world.history ++ [request.message] }
      match ControlFrame.make request with
      | .error _ => { made with results := world.results ++ [⟨request, none, false⟩] }
      | .ok frame =>
          { made with pending := some ⟨frame, world.agent.generation, connection, false⟩ }
  | _, _ => world

/-- A failed write may have put its frame into the pipe before it failed; a frame that
was cut stays incomplete and is never read. -/
def writeRequest (outcome : PipeWrite) (world : ControlWorld) : ControlWorld :=
  match world.pending with
  | some pending =>
      if pending.written then world
      else
        match outcome with
        | .completed =>
            { world with
              requests := push world.requests pending.connection pending.frame
              pending := some { pending with written := true } }
        | .failed delivered =>
            finish pending false
              (if delivered then
                { world with requests := push world.requests pending.connection pending.frame }
              else world)
  | none => world

/-- The predicate of the wait, and the answer once it holds or the time is over. -/
def wake (timedOut : Bool) (world : ControlWorld) : ControlWorld :=
  match world.pending with
  | some pending =>
      if pending.written then
        let sameGeneration := decide (world.agent.generation = pending.generation)
        let acknowledged := decide (world.agent.lastAcknowledgement.map ControlRequest.message =
          some pending.frame.request.message)
        if !sameGeneration || acknowledged then finish pending (sameGeneration && acknowledged) world
        else if timedOut then finish pending false world
        else world
      else world
  | none => world

/-- The service has finished the handshake of a connection before the agent publishes it. -/
def agentConnect (connection : ℕ) (world : ControlWorld) : ControlWorld :=
  if world.agent.pipe = none ∧ world.published ≤ connection ∧
      connection ≤ world.service.served then
    { world with
      agent := { world.agent with
        pipe := some connection
        lastAcknowledgement := none
        generation := world.agent.generation + 1 }
      published := connection + 1
      answered := world.history.length }
  else world

def agentDisconnect (world : ControlWorld) : ControlWorld :=
  match world.agent.pipe with
  | none => world
  | some _ =>
      { world with agent := { world.agent with
          pipe := none
          lastAcknowledgement := none
          generation := world.agent.generation + 1 } }

def agentRead (world : ControlWorld) : ControlWorld :=
  match world.agent.pipe with
  | none => world
  | some connection =>
      match world.echoes connection with
      | [] => world
      | frame :: rest =>
          let read := { world with echoes := Function.update world.echoes connection rest }
          match decodeEnhancedAgentControl frame.frame with
          | none => agentDisconnect read
          | some message =>
              { read with
                agent := { world.agent with
                  lastAcknowledgement := some ⟨frame.request.number, message⟩ }
                answered := frame.request.number + 1 }

def serviceRead (world : ControlWorld) : ControlWorld :=
  match world.service.serving, world.requests world.service.served with
  | .reading, frame :: rest =>
      { world with
        service := { world.service with serving := .handling frame }
        requests := Function.update world.requests world.service.served rest }
  | _, _ => world

/-- The loop is left and the next connection is awaited. -/
def serviceDrop (world : ControlWorld) : ControlWorld :=
  { world with service := { world.service with
      served := world.service.served + 1
      serving := .reading } }

def serviceApply (now : ℕ) (world : ControlWorld) : ControlWorld :=
  match world.service.serving with
  | .handling frame =>
      match decodeEnhancedAgentControl frame.frame with
      | none => serviceDrop world
      | some message =>
          { world with
            service := { world.service with
              serving := .echoing frame
              preshutdownSkipDeadline := applyPreshutdownControl now message.control }
            applied := world.applied ++ [⟨frame.request.number, message⟩] }
  | _ => world

def serviceEcho (outcome : PipeWrite) (world : ControlWorld) : ControlWorld :=
  match world.service.serving with
  | .echoing frame =>
      let sent := { world with echoes := push world.echoes world.service.served frame }
      match outcome with
      | .completed => { sent with service := { world.service with serving := .reading } }
      | .failed delivered => serviceDrop (if delivered then sent else world)
  | _ => world

/-- `DisconnectNamedPipe` discards what was not read. -/
def pipeLost (connection : ℕ) (world : ControlWorld) : ControlWorld :=
  { world with
    requests := Function.update world.requests connection []
    echoes := Function.update world.echoes connection [] }

def preshutdown (now : ℕ) (world : ControlWorld) : ControlWorld :=
  { world with service := { world.service with
      preshutdownSkipDeadline :=
        (consumePreshutdownCommitHandled now world.service.preshutdownSkipDeadline).2 } }

def step (world : ControlWorld) : ControlAction → ControlWorld
  | .sendControl control => world.sendControl control
  | .writeRequest outcome => world.writeRequest outcome
  | .wake timedOut => world.wake timedOut
  | .agentConnect connection => world.agentConnect connection
  | .agentDisconnect => world.agentDisconnect
  | .agentRead => world.agentRead
  | .serviceRead => world.serviceRead
  | .serviceApply now => world.serviceApply now
  | .serviceEcho outcome => world.serviceEcho outcome
  | .serviceDrop => world.serviceDrop
  | .pipeLost connection => world.pipeLost connection
  | .preshutdown now => world.preshutdown now

/-- The requests made since the last acknowledgement on this connection. -/
def outstanding (world : ControlWorld) : ℕ := world.history.length - world.answered

def FewOutstanding (world : ControlWorld) (action : ControlAction) : Prop :=
  (world.step action).outstanding < 2 ^ 64 - 1

instance (world : ControlWorld) (action : ControlAction) :
    Decidable (FewOutstanding world action) :=
  inferInstanceAs (Decidable (_ < _))

end ControlWorld

end UwfManager
